import PlanCompiler.Plan.Node

/-!
# The binary plan format

Version 1. All numbers are little-endian.

* A plan is the magic number, the version (16 bits), the database directory, the number of nodes
  (32 bits) and the nodes.
* A node is a tag, the length of its body (32 bits) and the body.
* A string is its length in bytes (32 bits) and its UTF-8 bytes; a list is its length (32 bits)
  and its elements.

This module has the constants and the little-endian numbers; the tags of expressions are
`ExprTag`.
-/

namespace PlanCompiler.Wire

/-- The bytes that every plan starts with. -/
def magic : List UInt8 := [0x4B, 0x50, 0x4C, 0x4E]

/-- The version that is written and read. -/
def version : UInt16 := 1

/-- Kinds of encoded expressions. -/
inductive ExprTag where
  | column
  | int
  | float
  | date
  | text
  | binary
  | junction (connective : Connective)
  | not
  | case
  | like
deriving DecidableEq, Repr

namespace ExprTag

/-- Every kind. -/
def all : List ExprTag :=
  [.column, .int, .float, .date, .text, .binary, .junction .and, .junction .or, .not, .case, .like]

/-- The byte of a kind. -/
def byte : ExprTag → UInt8
  | .column => 0x01
  | .int => 0x02
  | .float => 0x03
  | .date => 0x04
  | .text => 0x05
  | .binary => 0x10
  | .junction .and => 0x11
  | .junction .or => 0x12
  | .not => 0x13
  | .case => 0x14
  | .like => 0x15

/-- The kind that a byte stands for. -/
def ofByte? (byte : UInt8) : Option ExprTag :=
  all.find? (·.byte = byte)

/-- A kind of expression is found exactly by its own byte. -/
theorem ofByte?_eq_some_iff {byte : UInt8} {tag : ExprTag} :
    ofByte? byte = some tag ↔ tag.byte = byte := by
  constructor
  · intro h
    simpa using List.find?_some h
  · rintro rfl
    rcases tag with _ | _ | _ | _ | _ | _ | (_ | _) | _ | _ | _ <;> rfl

end ExprTag

/-- The lowest `size` bytes of a number, the lowest first. -/
def littleEndian : (size n : Nat) → List UInt8
  | 0, _ => []
  | size + 1, n => UInt8.ofNat n :: littleEndian size (n / 256)

/-- The number whose bytes are given, the lowest first. -/
def ofLittleEndian : List UInt8 → Nat
  | [] => 0
  | byte :: rest => byte.toNat + 256 * ofLittleEndian rest

/-- A number takes as many bytes as its size says. -/
@[simp]
theorem length_littleEndian (size n : Nat) : (littleEndian size n).length = size := by
  induction size generalizing n with
  | zero => rfl
  | succ size ih => simp [littleEndian, ih]

/-- Bytes hold a number up to the power of their count. -/
theorem ofLittleEndian_littleEndian (size n : Nat) :
    ofLittleEndian (littleEndian size n) = n % Nat.pow 256 size := by
  induction size generalizing n with
  | zero => exact (Nat.mod_one n).symm
  | succ size ih =>
    have power : Nat.pow 256 (size + 1) = 256 * Nat.pow 256 size := Nat.mul_comm _ _
    have low : (UInt8.ofNat n).toNat = n % 256 := UInt8.toNat_ofNat'
    rw [power, littleEndian, ofLittleEndian, ih, low]
    exact Nat.mod_mul.symm

/-- So many bytes stand for a number below that power. -/
theorem ofLittleEndian_lt (bytes : List UInt8) :
    ofLittleEndian bytes < Nat.pow 256 bytes.length := by
  induction bytes with
  | nil => exact Nat.one_pos
  | cons byte rest ih =>
    have power : Nat.pow 256 (rest.length + 1) = 256 * Nat.pow 256 rest.length :=
      Nat.mul_comm _ _
    have := byte.toNat_lt
    simp only [ofLittleEndian, List.length_cons]
    omega

/-- Bytes are those of the number that they stand for. -/
theorem littleEndian_ofLittleEndian (bytes : List UInt8) :
    littleEndian bytes.length (ofLittleEndian bytes) = bytes := by
  induction bytes with
  | nil => rfl
  | cons byte rest ih =>
    have := byte.toNat_lt
    have low : (byte.toNat + 256 * ofLittleEndian rest) % 256 = byte.toNat := by omega
    have high : (byte.toNat + 256 * ofLittleEndian rest) / 256 = ofLittleEndian rest := by omega
    simp only [List.length_cons, littleEndian, ofLittleEndian, high, ih, List.cons.injEq, and_true]
    apply UInt8.toNat_inj.1
    rw [UInt8.toNat_ofNat']
    exact low

end PlanCompiler.Wire
