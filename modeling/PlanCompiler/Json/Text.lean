/-!
# Words and strings of JSON

Reading of the parts of a JSON text that are spelled out: blanks, fixed words and strings. Every
function takes the rest of the text and returns what it leaves of it. Reading stops at the first
character that cannot belong to a JSON text; whether that is a wrong character or the end of the
text is kept apart.

The main fact about strings is `length_lt_of_string`: reading one makes the text shorter.
-/

namespace PlanCompiler.Json

/-- Why a text is not JSON. -/
inductive Fault where
  /-- A character is wrong. -/
  | malformed
  /-- The text ends too early. -/
  | incomplete
deriving DecidableEq, Repr

/-- Spaces, tabs and line ends. -/
def isBlank (c : Char) : Bool := c = ' ' ∨ c = '\t' ∨ c = '\n' ∨ c = '\r'

/-- The text from the next character on that is not blank. -/
def skipBlanks (text : List Char) : List Char := text.dropWhile isBlank

/-- Reads given characters. -/
def word : (expected text : List Char) → Except Fault (List Char)
  | [], text => .ok text
  | _ :: _, [] => .error .incomplete
  | first :: expected, c :: text =>
    if c = first then word expected text else .error .malformed

/-- The value of a hexadecimal digit. -/
def hexDigit? (c : Char) : Option Nat :=
  if c.isDigit then some (c.toNat - '0'.toNat)
  else if 'a' ≤ c ∧ c ≤ 'f' then some (c.toNat - 'a'.toNat + 10)
  else if 'A' ≤ c ∧ c ≤ 'F' then some (c.toNat - 'A'.toNat + 10)
  else none

/-- Number of bytes of a text in UTF-8. -/
def byteCount : List Char → Nat
  | [] => 0
  | c :: rest => c.utf8Size + byteCount rest

/-- Reads four hexadecimal digits. The text counts as ended if it has less than four bytes. -/
def fourDigits (text : List Char) : Except Fault (Nat × List Char) :=
  if byteCount text < 4 then .error .incomplete
  else match text with
    | a :: b :: c :: d :: rest =>
      match hexDigit? a, hexDigit? b, hexDigit? c, hexDigit? d with
      | some a, some b, some c, some d => .ok (16 * (16 * (16 * a + b) + c) + d, rest)
      | _, _, _, _ => .error .malformed
    | _ => .error .malformed

/-- Reads the second half of a character beyond the basic plane. -/
def secondHalf (high : Nat) : List Char → Except Fault (Char × List Char)
  | [] | ['\\'] => .error .incomplete
  | '\\' :: 'u' :: text => do
    let (low, rest) ← fourDigits text
    if 0xDC00 ≤ low ∧ low ≤ 0xDFFF then
      .ok (Char.ofNat (0x10000 + 0x400 * (high - 0xD800) + (low - 0xDC00)), rest)
    else .error .malformed
  | _ => .error .malformed

/-- Reads an escape, after its backslash. -/
def escape : List Char → Except Fault (Char × List Char)
  | [] => .error .incomplete
  | '"' :: rest => .ok ('"', rest)
  | '\\' :: rest => .ok ('\\', rest)
  | '/' :: rest => .ok ('/', rest)
  | 'b' :: rest => .ok ('\x08', rest)
  | 'f' :: rest => .ok ('\x0c', rest)
  | 'n' :: rest => .ok ('\n', rest)
  | 'r' :: rest => .ok ('\r', rest)
  | 't' :: rest => .ok ('\t', rest)
  | 'u' :: text => do
    let (unit, rest) ← fourDigits text
    if 0xDC00 ≤ unit ∧ unit ≤ 0xDFFF then .error .malformed
    else if 0xD800 ≤ unit ∧ unit ≤ 0xDBFF then secondHalf unit rest
    else .ok (Char.ofNat unit, rest)
  | _ => .error .malformed

/-- Reading four digits shortens the text. -/
theorem length_lt_of_fourDigits {text rest : List Char} {n : Nat}
    (h : fourDigits text = .ok (n, rest)) : rest.length < text.length := by
  unfold fourDigits at h
  split at h
  · simp at h
  · split at h
    · split at h
      · simp only [Except.ok.injEq, Prod.mk.injEq] at h
        simp only [← h.2, List.length_cons]
        omega
      · simp at h
    · simp at h

/-- Reading the second half of a pair shortens the text. -/
theorem length_lt_of_secondHalf {high : Nat} {text rest : List Char} {c : Char}
    (h : secondHalf high text = .ok (c, rest)) : rest.length < text.length := by
  unfold secondHalf at h
  split at h
  · simp at h
  · simp at h
  · rename_i tail
    -- the marker in front of the digits is what makes the text shorter
    cases digits : fourDigits tail with
    | error fault => simp [digits, bind, Except.bind] at h
    | ok read =>
      simp only [digits, bind, Except.bind] at h
      split at h
      · simp only [Except.ok.injEq, Prod.mk.injEq] at h
        have := length_lt_of_fourDigits digits
        simp only [← h.2, List.length_cons]
        omega
      · simp at h
  · simp at h

/-- Reading an escape shortens the text. -/
theorem length_lt_of_escape {text rest : List Char} {c : Char}
    (h : escape text = .ok (c, rest)) : rest.length < text.length := by
  unfold escape at h
  split at h
  -- only an escape with digits is longer than one character
  case h_10 tail =>
    cases digits : fourDigits tail with
    | error fault => simp [digits, bind, Except.bind] at h
    | ok read =>
      have shorter := length_lt_of_fourDigits digits
      simp only [digits, bind, Except.bind] at h
      split at h
      · simp at h
      · split at h
        · have := length_lt_of_secondHalf h
          simp only [List.length_cons]
          omega
        · simp only [Except.ok.injEq, Prod.mk.injEq] at h
          simp only [← h.2, List.length_cons]
          omega
  all_goals simp_all

/-- Reads a string, after its opening quote. Control characters have to be escaped. -/
def string (text : List Char) : Except Fault (List Char × List Char) :=
  match text with
  | [] => .error .incomplete
  | '"' :: rest => .ok ([], rest)
  | '\\' :: rest =>
    match _ : escape rest with
    | .error fault => .error fault
    | .ok (c, rest) => do
      let (contents, rest) ← string rest
      .ok (c :: contents, rest)
  | c :: rest =>
    if c.toNat < 0x20 then .error .malformed
    else do
      let (contents, rest) ← string rest
      .ok (c :: contents, rest)
termination_by text.length
decreasing_by
  · rename_i h
    have := length_lt_of_escape h
    simp only [List.length_cons]
    omega
  · simp

/-- Reading a string shortens the text. -/
theorem length_lt_of_string {text contents rest : List Char}
    (h : string text = .ok (contents, rest)) : rest.length < text.length := by
  fun_induction string text generalizing contents rest with
  | case1 => simp at h
  | case2 rest' => simp_all
  | case3 => simp at h
  -- an escaped character is followed by the others
  | case4 tail c tail' found ih =>
    cases read : string tail' with
    | error fault => simp [read, bind, Except.bind] at h
    | ok value =>
      simp only [read, bind, Except.bind, Except.ok.injEq, Prod.mk.injEq] at h
      have := ih read
      have := length_lt_of_escape found
      simp only [← h.2, List.length_cons]
      omega
  | case5 => simp at h
  -- any other character that stands for itself
  | case6 c tail _ _ _ ih =>
    cases read : string tail with
    | error fault => simp [read, bind, Except.bind] at h
    | ok value =>
      simp only [read, bind, Except.bind, Except.ok.injEq, Prod.mk.injEq] at h
      have := ih read
      simp only [← h.2, List.length_cons]
      omega

end PlanCompiler.Json
