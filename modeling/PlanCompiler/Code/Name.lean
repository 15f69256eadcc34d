/-!
# Names in the generated program

Every identifier of the program that depends on the plan, and the functions that are called.
Variables of a node carry its number, so that the names of two nodes never clash.
-/

namespace PlanCompiler

/-- What the variables of a node are for; it decides on their first letter. -/
inductive Owner where
  /-- The columns of a scanned table. -/
  | table
  /-- The row of a scanned table. -/
  | row
  | filter
  | projection
  | join
  | aggregation
deriving DecidableEq, Repr

/-- First letter of the variables of an owner. -/
def Owner.letter : Owner → String
  | .table => "s"
  | .row => "i"
  | .filter => "f"
  | .projection => "p"
  | .join => "j"
  | .aggregation => "a"

/-- Functions that every program has, but for `divide`, which checked programs have. -/
inductive Helper where
  /-- Division that records a fault. -/
  | divide
  | hashInt
  | hashFloat
  | hashText
  /-- Match against a pattern. -/
  | like
  | hashCombine
  /-- Number of buckets for a number of rows. -/
  | tableSize
  | daysFromCivil
  | printDate
  | parseInt
  | parseFloat
  | parseDate
  | readLine
  | storeText
  /-- Cuts a line into fields. -/
  | split
deriving DecidableEq, Repr

/-- Name of a helper function. -/
def Helper.name : Helper → String
  | .divide => "kiln_idiv"
  | .hashInt => "kiln_hash_i64"
  | .hashFloat => "kiln_hash_f64"
  | .hashText => "kiln_hash_text"
  | .like => "kiln_like"
  | .hashCombine => "kiln_hash_combine"
  | .tableSize => "kiln_table_size"
  | .daysFromCivil => "kiln_days_from_civil"
  | .printDate => "kiln_print_date"
  | .parseInt => "kiln_parse_i64"
  | .parseFloat => "kiln_parse_f64"
  | .parseDate => "kiln_parse_date"
  | .readLine => "kiln_read_line"
  | .storeText => "kiln_store_text"
  | .split => "kiln_split"

/-- An identifier of the generated program. -/
inductive Name where
  /-- The variable of a node, or one of its variables by part. -/
  | ofNode (owner : Owner) (node : Nat) (part : Option String)
  /-- Row of the batch that is printed. -/
  | resultRow
  /-- Type of the columns of a scanned table. -/
  | tableType (node : Nat)
  /-- Function that loads a scanned table. -/
  | loader (node : Nat)
  /-- Type of the groups of an aggregation. -/
  | groupsType (node : Nat)
  /-- Function that hashes a group key. -/
  | groupsHash (node : Nat)
  /-- Function that makes room for groups. -/
  | groupsGrow (node : Nat)
  /-- Function that finds or adds a group. -/
  | groupsFind (node : Nat)
  /-- Function that prints a row of the result. -/
  | printRow
  /-- A helper function. -/
  | helper (function : Helper)
deriving DecidableEq, Repr

namespace Name

/-- Spelling of a name. -/
def text : Name → String
  | .ofNode owner node none => owner.letter ++ toString node
  | .ofNode owner node (some part) => owner.letter ++ toString node ++ "_" ++ part
  | .resultRow => "kiln_i"
  | .tableType node => "kiln_scan" ++ toString node
  | .loader node => "kiln_load_s" ++ toString node
  | .groupsType node => "kiln_groups" ++ toString node
  | .groupsHash node => "kiln_groups" ++ toString node ++ "_hash"
  | .groupsGrow node => "kiln_groups" ++ toString node ++ "_grow"
  | .groupsFind node => "kiln_groups" ++ toString node ++ "_find"
  | .printRow => "kiln_print_row"
  | .helper function => function.name

end Name

end PlanCompiler
