import PlanCompiler.Numeral
import PlanCompiler.Plan.Validity
import PlanCompiler.Plan.Wire.Format

/-!
# Reading binary plans: cursor and primitive readers

A cursor is a position in a buffer and a limit that reading may not pass: the end of the buffer,
or the end of the node whose body is being read. A `Reader` moves the cursor over what it reads
or reports the first malformed byte.

`Reader.count` rejects a count of elements that cannot fit into the bytes that remain, so that
no list is longer than the buffer.
-/

namespace PlanCompiler

namespace Wire

/-- What is wrong with a buffer. The names say what was being read. -/
inductive DecodeFault where
  /-- The buffer does not start with the magic number. -/
  | badMagic
  /-- The version is not the one that is read. -/
  | version (found : Nat)
  /-- The buffer ends too early. -/
  | truncated (what : String)
  /-- The body of a node ends too early. -/
  | pastBody (what : String)
  /-- A count or a length does not fit into the bytes that remain. -/
  | tooMany (what : String) (count : Nat)
  /-- The bytes of a string are not UTF-8. -/
  | notUtf8 (what : String)
  /-- The buffer has no nodes. -/
  | noNodes
  /-- The body of a node does not fit into the bytes that remain. -/
  | bodyLength (length remaining : Nat)
  /-- A node has a tag that stands for no operator. -/
  | nodeTag (tag : UInt8)
  /-- The body of a node goes on after its contents. -/
  | unread (count : Nat) (node : String)
  /-- A column has a tag that stands for no type. -/
  | columnType (tag : UInt8)
  /-- An aggregate has a tag that stands for none. -/
  | aggregateKind (tag : UInt8)
  /-- An expression nests too deeply. -/
  | nesting
  /-- An expression has a tag that stands for no kind. -/
  | exprTag (tag : UInt8)
  /-- A tag stands for no binary operator. -/
  | operatorTag (tag : UInt8)
  /-- A connective joins no operands. -/
  | emptyJunction
  /-- The buffer goes on after the last node. -/
  | trailing (count : Nat)
  /-- The nodes are well formed but no plan. -/
  | invalid (fault : NodeFault)
deriving DecidableEq, Repr

namespace DecodeFault

/-- The wording of a fault. -/
def message : DecodeFault → String
  | .badMagic => "bad magic, not a plan buffer"
  | .version found => "unsupported plan version " ++ toString found
  | .truncated what => "buffer truncated while reading " ++ what
  | .pastBody what => what ++ " runs past the end of the node body"
  | .tooMany what count => what ++ " " ++ toString count ++ " exceeds the remaining bytes"
  | .notUtf8 what => what ++ " is not valid utf-8"
  | .noNodes => "plan has no nodes"
  | .bodyLength length remaining =>
    "node length " ++ toString length ++ " exceeds the " ++ toString remaining ++ " remaining bytes"
  | .nodeTag tag => "unknown operator tag 0x" ++ Numeral.hexByte tag
  | .unread count node =>
    toString count ++ " unread bytes at the end of the " ++ node ++ " node"
  | .columnType tag => "unknown column type " ++ toString tag.toNat
  | .aggregateKind tag => "unknown aggregate kind " ++ toString tag.toNat
  | .nesting => "expression nesting exceeds " ++ toString Expr.maxDepth
  | .exprTag tag => "unknown expression tag 0x" ++ Numeral.hexByte tag
  | .operatorTag tag => "unknown binary operator " ++ toString tag.toNat
  | .emptyJunction => "empty boolean operand list"
  | .trailing count => toString count ++ " trailing bytes after the last node"
  | .invalid fault => fault.message

end DecodeFault

/-- A fault and the byte at which it shows. For nodes that are no plan this is the first byte of
the node at fault. -/
structure DecodeError where
  /-- Position in the buffer. -/
  offset : Nat
  /-- What is wrong there. -/
  fault : DecodeFault
deriving DecidableEq, Repr

namespace DecodeError

/-- The wording of a decoding error. -/
def message (error : DecodeError) : String :=
  "invalid plan at byte " ++ toString error.offset ++ ": " ++ error.fault.message

end DecodeError

/-- A position in a buffer. -/
structure Cursor where
  /-- The whole buffer. -/
  bytes : Array UInt8
  /-- Position of the next byte. -/
  offset : Nat
  /-- Position that reading may not pass. -/
  limit : Nat

namespace Cursor

/-- The start of a buffer. -/
def start (buffer : List UInt8) : Cursor :=
  { bytes := buffer.toArray, offset := 0, limit := buffer.length }

/-- Number of bytes up to the limit. -/
def remaining (c : Cursor) : Nat := c.limit - c.offset

/-- The bytes up to the limit. -/
def rest (c : Cursor) : List UInt8 := (c.bytes.extract c.offset c.limit).toList

/-- The cursor behind the next `n` bytes. -/
def advance (c : Cursor) (n : Nat) : Cursor := { c with offset := c.offset + n }

/-- The position lies before the limit and the limit in the buffer. -/
def WellPlaced (c : Cursor) : Prop := c.offset ≤ c.limit ∧ c.limit ≤ c.bytes.size

/-- The cursor at the start of a buffer is well placed. -/
theorem wellPlaced_start (buffer : List UInt8) : (start buffer).WellPlaced := by
  simp [start, WellPlaced]

/-- At the start, the whole buffer is left. -/
@[simp]
theorem rest_start (buffer : List UInt8) : (start buffer).rest = buffer := by
  simp [start, rest]

/-- As many bytes are left as the cursor counts. -/
theorem length_rest {c : Cursor} (h : c.WellPlaced) : c.rest.length = c.remaining := by
  have := h.2
  simp only [rest, remaining, Array.length_toList, Array.size_extract]
  omega

end Cursor

/-- A computation that reads on from a cursor. -/
abbrev Reader (α : Type) := StateT Cursor (Except DecodeError) α

namespace Reader

/-- The position of the next byte. -/
def here : Reader Nat := fun c => .ok (c.offset, c)

/-- Number of bytes up to the limit. -/
def remaining : Reader Nat := fun c => .ok (c.remaining, c)

/-- Stops with a fault at a position. -/
def fail {α : Type} (offset : Nat) (fault : DecodeFault) : Reader α :=
  fun _ => .error { offset, fault }

/-- The next `n` bytes. -/
def take (n : Nat) (what : String) : Reader (List UInt8) := fun c =>
  if c.remaining < n then
    .error
      { offset := c.offset
        fault := if c.limit < c.bytes.size then .pastBody what else .truncated what }
  else .ok ((c.bytes.extract c.offset (c.offset + n)).toList, c.advance n)

/-- A little-endian number of `size` bytes. -/
def number (size : Nat) (what : String) : Reader Nat := do
  return ofLittleEndian (← take size what)

/-- A byte. -/
def byte (what : String) : Reader UInt8 := do
  return UInt8.ofNat (← number 1 what)

/-- A 32 bit number. -/
def word (what : String) : Reader UInt32 := do
  return UInt32.ofNat (← number 4 what)

/-- The number of the elements that follow, each of at least `least` bytes. -/
def count (what : String) (least : Nat) : Reader Nat := do
  let countAt ← here
  let n ← number 4 what
  if (← remaining) < n * least then fail countAt (.tooMany what n)
  return n

/-- A string. -/
def string (what : String) : Reader String := do
  let length ← count what 1
  let textAt ← here
  let bytes ← take length what
  match String.fromUTF8? ⟨bytes.toArray⟩ with
  | some s => return s
  | none => fail textAt (.notUtf8 what)

/-- A fixed number of elements. -/
def replicate {α : Type} (element : Reader α) : Nat → Reader (List α)
  | 0 => pure []
  | n + 1 => do
    let first ← element
    let others ← replicate element n
    return first :: others

/-- A part of a given length that must be read to its end; `unread` is the fault if it is
not. -/
def delimited {α : Type} (length : Nat) (contents : Reader α) (unread : Nat → α → DecodeFault) :
    Reader α := fun c => do
  let (value, inner) ← contents { c with limit := c.offset + length }
  if inner.remaining ≠ 0 then
    .error { offset := inner.offset, fault := unread inner.remaining value }
  else .ok (value, { inner with limit := c.limit })

end Reader

end Wire

end PlanCompiler
