import PlanCompiler.Numeral
import PlanCompiler.Proofs.Outcome

/-!
# Reading written numerals

Numbers written in decimal are read back, also with leading zeros. What is written consists of
digits, except for a minus sign in front. The spellings that are read for a number differ in leading
zeros and in a plus sign; of those without a sign there is one of each length.

## Main definitions

* `Numeral.Spells`: digits, with a plus sign or without, stand for a number;
* `Numeral.HasDigits`: so many digits stand for a number.

## Main results

* `Numeral.natural?_eq_some_iff`: what digits stand for a number;
* `Numeral.natural?_toDigits`, `Numeral.natural?_zeroFill`: written digits and their value;
* `Numeral.uint32?_toString`, `Numeral.int64?_toString`: numbers of bounded ranges;
* `Numeral.uint32?_eq_some_iff`, `Numeral.int32?_eq_some_iff`: all spellings that are read;
* `Numeral.hasDigits_iff`: the only spelling of a length;
* `Numeral.eq_toDigits_iff`: the only spelling without a leading zero.
-/

namespace PlanCompiler.Numeral

/-! ## Digits -/

/-- A natural number is read exactly from its digits, of which there is at least one. -/
theorem natural?_eq_some_iff {digits : List Char} {n : Nat} :
    natural? digits = some n ↔
      digits ≠ [] ∧ (∀ c ∈ digits, c.isDigit = true) ∧ Nat.ofDigitChars 10 digits 0 = n := by
  rw [natural?, ← List.all_eq_true, ← and_assoc]
  by_cases h : digits ≠ [] ∧ digits.all Char.isDigit = true
  · rw [if_pos h, Option.some.injEq, and_iff_right h]
  · rw [if_neg h]
    exact ⟨nofun, fun found => absurd found.1 h⟩

/-- Any other character spoils a run of digits. -/
theorem natural?_eq_none {digits : List Char} {c : Char} (member : c ∈ digits)
    (other : c.isDigit = false) : natural? digits = none := by
  rw [natural?, if_neg]
  rintro ⟨-, all⟩
  rw [List.all_eq_true] at all
  exact absurd (all c member) (by rw [other]; decide)

/-- In any base the digits are those characters. -/
theorem exists_digitChar_of_mem_toDigits {base n : Nat} (nontrivial : 1 < base) {c : Char}
    (member : c ∈ Nat.toDigits base n) : ∃ digit, digit < base ∧ c = Nat.digitChar digit := by
  induction n using Nat.strongRecOn with
  | _ n ih =>
    rw [Nat.toDigits_eq_if nontrivial] at member
    split at member
    · rename_i small
      exact ⟨n, small, List.mem_singleton.1 member⟩
    · rename_i atLeast
      rcases List.mem_append.1 member with member | member
      · exact ih (n / base) (Nat.div_lt_self (by omega) nontrivial) member
      · exact ⟨n % base, Nat.mod_lt _ (by omega), List.mem_singleton.1 member⟩

/-- The digits of a number are digits. -/
theorem isDigit_of_mem_toDigits {n : Nat} {c : Char} (h : c ∈ Nat.toDigits 10 n) :
    c.isDigit = true :=
  Nat.isDigit_of_mem_toDigits (by decide) (by decide) h

/-- A written number has no other characters than digits. -/
@[simp]
theorem notMem_toDigits {c : Char} (other : c.isDigit = false) (n : Nat) :
    c ∉ Nat.toDigits 10 n :=
  fun member => absurd (isDigit_of_mem_toDigits member) (by simp [other])

/-- Different numbers have different digits. -/
theorem toDigits_injective : Function.Injective (Nat.toDigits 10) := by
  have left : Function.LeftInverse (Nat.ofDigitChars 10 · 0) (Nat.toDigits 10) :=
    fun _ => Nat.ofDigitChars_ten_toDigits
  exact left.injective

/-- A number is read back from its digits. -/
theorem natural?_toDigits (n : Nat) : natural? (Nat.toDigits 10 n) = some n :=
  natural?_eq_some_iff.2
    ⟨Nat.toDigits_ne_nil, fun _ => isDigit_of_mem_toDigits, Nat.ofDigitChars_ten_toDigits⟩

/-- Leading zeros change nothing. -/
theorem natural?_zeros_append {digits : List Char} {n : Nat} (zeros : Nat)
    (h : natural? digits = some n) : natural? (List.replicate zeros '0' ++ digits) = some n := by
  obtain ⟨nonempty, all, value⟩ := natural?_eq_some_iff.1 h
  refine natural?_eq_some_iff.2 ⟨by simp [nonempty], ?_, ?_⟩
  · intro c member
    rcases List.mem_append.1 member with member | member
    · rw [List.eq_of_mem_replicate member]
      rfl
    · exact all c member
  · rw [Nat.ofDigitChars_append, Nat.ofDigitChars_replicate_zero, Nat.mul_zero, value]

/-- Trailing zeros are powers of ten. -/
theorem natural?_append_zeros {digits : List Char} {n : Nat} (zeros : Nat)
    (h : natural? digits = some n) :
    natural? (digits ++ List.replicate zeros '0') = some (10 ^ zeros * n) := by
  obtain ⟨nonempty, all, value⟩ := natural?_eq_some_iff.1 h
  refine natural?_eq_some_iff.2 ⟨by simp [nonempty], ?_, ?_⟩
  · intro c member
    rcases List.mem_append.1 member with member | member
    · exact all c member
    · rw [List.eq_of_mem_replicate member]
      rfl
  · rw [Nat.ofDigitChars_append, Nat.ofDigitChars_replicate_zero, value]

/-- The text of a natural number is made of its digits. -/
theorem toList_toString (n : Nat) : (toString n).toList = Nat.toDigits 10 n := by
  rw [Nat.toString_eq_ofList_toDigits, String.toList_ofList]

/-- A number is read back with zeros in front as well. -/
theorem natural?_zeroFill (width n : Nat) :
    natural? (zeroFill width (toString n)).toList = some n := by
  rw [zeroFill, String.toList_append, String.toList_ofList, toList_toString]
  exact natural?_zeros_append _ (natural?_toDigits n)

/-- With zeros in front, all characters are digits. -/
theorem isDigit_of_mem_zeroFill {width n : Nat} {c : Char}
    (h : c ∈ (zeroFill width (toString n)).toList) : c.isDigit = true :=
  (natural?_eq_some_iff.1 (natural?_zeroFill width n)).2.1 c h

/-- Zeros fill a number up to the width, and cut nothing off. -/
theorem length_zeroFill (width n : Nat) :
    (zeroFill width (toString n)).toList.length = max width (Nat.toDigits 10 n).length := by
  rw [zeroFill, String.toList_append, String.toList_ofList, List.length_append,
    List.length_replicate, ← String.length_toList, toList_toString]
  omega

/-- A text of one-byte characters has as many bytes as characters. -/
theorem utf8ByteSize_eq_length {s : String} (h : ∀ c ∈ s.toList, c.utf8Size = 1) :
    s.utf8ByteSize = s.toList.length := by
  -- the induction is on the list of characters
  obtain ⟨chars, rfl⟩ : ∃ chars, s = String.ofList chars := ⟨s.toList, String.ofList_toList.symm⟩
  rw [String.toList_ofList] at h ⊢
  induction chars with
  | nil => rfl
  | cons c rest ih =>
    have cut : String.ofList (c :: rest) = String.singleton c ++ String.ofList rest := by
      rw [← String.toList_inj]
      simp
    rw [cut, String.utf8ByteSize_append, String.utf8ByteSize_singleton, h c List.mem_cons_self,
      ih fun c member => h c (List.mem_cons_of_mem _ member), List.length_cons, Nat.add_comm]

/-- A digit takes one byte. -/
theorem utf8Size_of_isDigit {c : Char} (h : c.isDigit = true) : c.utf8Size = 1 := by
  rw [Char.isDigit, Bool.and_eq_true, decide_eq_true_iff, decide_eq_true_iff] at h
  rw [Char.utf8Size_eq_one_iff]
  exact UInt32.le_trans h.2 (by decide)

/-- The first character of a run of digits. -/
theorem head_ne_of_natural? {c : Char} {rest : List Char} {n : Nat}
    (h : natural? (c :: rest) = some n) {sign : Char} (other : sign.isDigit = false) :
    c ≠ sign := by
  rintro rfl
  rw [natural?_eq_none List.mem_cons_self other] at h
  cases h

/-! ## Bounded ranges -/

/-- Digits have no sign that could be taken off. -/
theorem below?_of_natural? {bound n : Nat} {digits : List Char} (h : natural? digits = some n)
    (small : n < bound) : below? bound digits = some n := by
  unfold below?
  dsimp only
  split
  · exact absurd rfl (head_ne_of_natural? h rfl)
  · rw [h, Option.filter_some, if_pos (decide_eq_true small)]

/-- A number without a sign is read below the bound. -/
theorem within?_of_natural? {bound n : Nat} {digits : List Char} (h : natural? digits = some n)
    (small : n < bound) : within? bound digits = some (n : Int) := by
  unfold within?
  split
  · exact absurd rfl (head_ne_of_natural? h rfl)
  · rw [below?_of_natural? h small]
    rfl

/-- A number behind a minus sign is read up to the bound. -/
theorem within?_minus {bound n : Nat} {digits : List Char} (h : natural? digits = some n)
    (small : n ≤ bound) : within? bound ('-' :: digits) = some (-(n : Int)) := by
  rw [within?, h, Option.filter_some, if_pos (decide_eq_true small)]
  rfl

/-- A numeral of a bounded range has nothing but digits after its first character. -/
theorem within?_eq_none {bound : Nat} {first c : Char} {rest : List Char} (member : c ∈ rest)
    (other : c.isDigit = false) : within? bound (first :: rest) = none := by
  -- the character is left over, with or without a sign in front
  have whole : natural? (first :: rest) = none :=
    natural?_eq_none (List.mem_cons_of_mem _ member) other
  have tail : natural? rest = none := natural?_eq_none member other
  unfold within?
  split
  · rename_i digits equal
    cases equal
    rw [tail]
    rfl
  · have unsigned : below? bound (first :: rest) = none := by
      unfold below?
      dsimp only
      split
      · rename_i digits equal
        cases equal
        rw [tail, Option.filter_none]
      · rw [whole, Option.filter_none]
    rw [unsigned]
    rfl

/-- An unsigned number is read from its digits. -/
theorem uint32?_of_natural? {digits : List Char} (n : UInt32)
    (h : natural? digits = some n.toNat) : uint32? digits = some n := by
  rw [uint32?, below?_of_natural? h n.toNat_lt, Option.map_some, UInt32.ofNat_toNat]

/-- A signed number that is not negative is read from its digits. -/
theorem int32?_of_natural? {digits : List Char} (n : Int32)
    (h : natural? digits = some n.toInt.natAbs) (nonneg : 0 ≤ n.toInt) :
    int32? digits = some n := by
  have bound := n.toInt_lt
  rw [int32?, within?_of_natural? h (by omega), Option.map_some,
    show (n.toInt.natAbs : Int) = n.toInt by omega, Int32.ofInt_toInt]

/-- An unsigned number is read back from its text. -/
theorem uint32?_toString (n : UInt32) : uint32? (toString n.toNat).toList = some n :=
  uint32?_of_natural? n (by rw [toList_toString, natural?_toDigits])

/-- The text of an integer is made of its digits, with a minus sign in front if it is negative. -/
theorem toList_toString_int (n : Int) :
    (toString n).toList =
      if n < 0 then '-' :: Nat.toDigits 10 n.natAbs else Nat.toDigits 10 n.natAbs := by
  rw [Int.toString_eq_repr, Int.repr_eq_if]
  by_cases negative : n < 0
  · rw [if_neg (by omega), if_pos negative, String.toList_append, Nat.toList_repr,
      show (-n).toNat = n.natAbs by omega]
    rfl
  · rw [if_pos (by omega), if_neg negative, Nat.toList_repr, show n.toNat = n.natAbs by omega]

/-- A signed number is read back from its text. -/
theorem int64?_toString (n : Int64) : int64? (toString n.toInt).toList = some n := by
  have upper := n.toInt_lt
  have lower := n.le_toInt
  rw [int64?, toList_toString_int]
  by_cases negative : n.toInt < 0
  · rw [if_pos negative, within?_minus (natural?_toDigits _) (by omega), Option.map_some,
      show -(n.toInt.natAbs : Int) = n.toInt by omega, Int64.ofInt_toInt]
  · rw [if_neg negative, within?_of_natural? (natural?_toDigits _) (by omega), Option.map_some,
      show (n.toInt.natAbs : Int) = n.toInt by omega, Int64.ofInt_toInt]

/-! ## Spellings of a number -/

/-- Digits stand for a number, with a plus sign in front or without. -/
def Spells (numeral : List Char) (n : Nat) : Prop :=
  natural? numeral = some n ∨ ∃ digits, numeral = '+' :: digits ∧ natural? digits = some n

/-- A number is read exactly from a numeral that stands for it, below the bound. -/
theorem below?_eq_some_iff {bound n : Nat} {numeral : List Char} :
    below? bound numeral = some n ↔ Spells numeral n ∧ n < bound := by
  have bounded (digits : List Char) :
      (natural? digits).filter (fun m => decide (m < bound)) = some n ↔
        natural? digits = some n ∧ n < bound := by
    rw [Option.filter_eq_some_iff, decide_eq_true_iff]
  unfold below? Spells
  dsimp only
  split
  · rename_i digits
    -- behind a sign that is taken off no other one is read
    have whole : natural? ('+' :: digits) = none := natural?_eq_none List.mem_cons_self rfl
    simp [bounded, whole]
  · rename_i unsigned
    rw [bounded]
    constructor
    · exact fun ⟨read, small⟩ => ⟨.inl read, small⟩
    · rintro ⟨read | ⟨digits, signed, -⟩, small⟩
      · exact ⟨read, small⟩
      · exact absurd signed (unsigned digits)

/-- A numeral is read as one number only. -/
theorem Spells.unique {numeral : List Char} {n m : Nat} (first : Spells numeral n)
    (second : Spells numeral m) : n = m := by
  -- a reader with room for both finds both
  have readFirst : below? (n + m + 1) numeral = some n :=
    below?_eq_some_iff.2 ⟨first, by omega⟩
  have readSecond : below? (n + m + 1) numeral = some m :=
    below?_eq_some_iff.2 ⟨second, by omega⟩
  exact Option.some.inj (readFirst.symm.trans readSecond)

/-- An unsigned number is read exactly from a numeral that stands for it. -/
theorem uint32?_eq_some_iff {numeral : List Char} {n : UInt32} :
    uint32? numeral = some n ↔ Spells numeral n.toNat := by
  rw [uint32?, Option.map_eq_some_iff]
  constructor
  · rintro ⟨value, read, rfl⟩
    obtain ⟨spelled, small⟩ := below?_eq_some_iff.1 read
    rwa [UInt32.toNat_ofNat_of_lt' small]
  · intro spelled
    exact ⟨n.toNat, below?_eq_some_iff.2 ⟨spelled, n.toNat_lt⟩, UInt32.ofNat_toNat⟩

/-- Without a minus sign only the numbers from zero on are read. -/
theorem int32?_eq_some_iff {numeral : List Char} (unsigned : '-' ∉ numeral) {n : Int32} :
    int32? numeral = some n ↔ 0 ≤ n.toInt ∧ Spells numeral n.toInt.natAbs := by
  -- only the branch without a minus sign is left
  have within : within? 0x80000000 numeral =
      (below? 0x80000000 numeral).map fun (value : Nat) => (value : Int) := by
    unfold within?
    split
    · exact absurd List.mem_cons_self unsigned
    · cases below? 0x80000000 numeral <;> rfl
  rw [int32?, within, Option.map_map, Option.map_eq_some_iff]
  constructor
  · rintro ⟨value, read, rfl⟩
    obtain ⟨spelled, small⟩ := below?_eq_some_iff.1 read
    have exact : (Int32.ofInt value).toInt = value :=
      Int32.toInt_ofInt_of_le (by omega) (by omega)
    show 0 ≤ (Int32.ofInt value).toInt ∧ Spells numeral (Int32.ofInt value).toInt.natAbs
    rw [exact]
    exact ⟨Int.natCast_nonneg value, spelled⟩
  · rintro ⟨nonneg, spelled⟩
    have bound := n.toInt_lt
    refine ⟨n.toInt.natAbs, below?_eq_some_iff.2 ⟨spelled, by omega⟩, ?_⟩
    show Int32.ofInt (n.toInt.natAbs : Int) = n
    rw [Int.natAbs_of_nonneg nonneg, Int32.ofInt_toInt]

/-- The characters of a numeral. -/
theorem Spells.isDigit_or_plus {numeral : List Char} {n : Nat} (spelled : Spells numeral n)
    {c : Char} (member : c ∈ numeral) : c.isDigit = true ∨ c = '+' := by
  rcases spelled with read | ⟨digits, rfl, read⟩
  · exact .inl ((natural?_eq_some_iff.1 read).2.1 c member)
  · rcases List.mem_cons.1 member with rfl | member
    · exact .inr rfl
    · exact .inl ((natural?_eq_some_iff.1 read).2.1 c member)

/-- A numeral is not empty. -/
theorem Spells.ne_nil {numeral : List Char} {n : Nat} (spelled : Spells numeral n) :
    numeral ≠ [] := by
  rcases spelled with read | ⟨digits, rfl, -⟩
  · exact (natural?_eq_some_iff.1 read).1
  · exact List.cons_ne_nil _ _

/-- The first digit counts by the number of those behind it. -/
theorem ofDigitChars_cons (c : Char) (digits : List Char) :
    Nat.ofDigitChars 10 (c :: digits) 0 =
      10 ^ digits.length * (c.toNat - '0'.toNat) + Nat.ofDigitChars 10 digits 0 := by
  rw [Nat.ofDigitChars_cons, Nat.mul_zero, Nat.zero_add, Nat.ofDigitChars_eq_ofDigitChars_zero]

/-- So many digits stand for a number below that power of ten. -/
theorem ofDigitChars_lt {digits : List Char} (all : ∀ c ∈ digits, c.isDigit = true) :
    Nat.ofDigitChars 10 digits 0 < 10 ^ digits.length := by
  induction digits with
  | nil => decide
  | cons c rest ih =>
    obtain ⟨first, others⟩ := List.forall_mem_cons.1 all
    have ⟨_, last⟩ := Char.isDigit_iff_toNat.1 first
    have digit : c.toNat - '0'.toNat ≤ 9 := by
      change c.toNat ≤ 57 at last
      show c.toNat - 48 ≤ 9
      omega
    have least := Nat.mul_le_mul_left (10 ^ rest.length) digit
    rw [ofDigitChars_cons, List.length_cons, Nat.pow_succ]
    have := ih others
    omega

/-- A numeral stands for a number below the power of ten by its length. -/
theorem Spells.lt {numeral : List Char} {n : Nat} (spelled : Spells numeral n) :
    n < 10 ^ numeral.length := by
  rcases spelled with read | ⟨digits, rfl, read⟩
  · obtain ⟨-, all, rfl⟩ := natural?_eq_some_iff.1 read
    exact ofDigitChars_lt all
  · obtain ⟨-, all, rfl⟩ := natural?_eq_some_iff.1 read
    refine Nat.lt_of_lt_of_le (ofDigitChars_lt all) ?_
    exact Nat.pow_le_pow_right (by decide) (Nat.le_succ _)

/-- So many digits stand for a number. -/
structure HasDigits (width : Nat) (digits : List Char) (n : Nat) : Prop where
  /-- The number of digits. -/
  length : digits.length = width
  /-- Their value. -/
  value : natural? digits = some n

/-- Digits are known by their number and their value. -/
theorem eq_of_ofDigitChars_eq {digits digits' : List Char}
    (all : ∀ c ∈ digits, c.isDigit = true) (all' : ∀ c ∈ digits', c.isDigit = true)
    (long : digits.length = digits'.length)
    (same : Nat.ofDigitChars 10 digits 0 = Nat.ofDigitChars 10 digits' 0) : digits = digits' := by
  induction digits generalizing digits' with
  | nil => exact (List.length_eq_zero_iff.1 long.symm).symm
  | cons c rest ih =>
    obtain ⟨c', rest', rfl⟩ := List.exists_cons_of_length_eq_add_one long.symm
    obtain ⟨first, others⟩ := List.forall_mem_cons.1 all
    obtain ⟨first', others'⟩ := List.forall_mem_cons.1 all'
    have long : rest.length = rest'.length := Nat.succ.inj long
    have low := ofDigitChars_lt others
    have low' := ofDigitChars_lt others'
    rw [ofDigitChars_cons, ofDigitChars_cons] at same
    rw [long] at same low
    have power : 0 < 10 ^ rest'.length := Nat.pow_pos (by decide)
    -- the first digit is the quotient by the power of ten, the others are the remainder
    have quotient := congrArg (· / 10 ^ rest'.length) same
    have remainder := congrArg (· % 10 ^ rest'.length) same
    simp only [Nat.mul_add_div power, Nat.div_eq_of_lt low, Nat.div_eq_of_lt low',
      Nat.add_zero] at quotient
    simp only [Nat.mul_add_mod, Nat.mod_eq_of_lt low, Nat.mod_eq_of_lt low'] at remainder
    have ⟨zero, _⟩ := Char.isDigit_iff_toNat.1 first
    have ⟨zero', _⟩ := Char.isDigit_iff_toNat.1 first'
    have equal : c = c' := Char.toNat_inj.1 (by omega)
    rw [equal, ih others others' long remainder]

/-- So many digits of a number stand for it. -/
theorem HasDigits.spells {width n : Nat} {digits : List Char} (h : HasDigits width digits n) :
    Spells digits n :=
  .inl h.value

/-- The only digits of a width that stand for a number are the written ones with leading zeros. -/
theorem hasDigits_iff {width n : Nat} {digits : List Char} (positive : 0 < width) :
    HasDigits width digits n ↔ digits = (zeroFill width (toString n)).toList ∧ n < 10 ^ width := by
  have short := Nat.length_toDigits_le_iff (n := n) (b := 10) (k := width) (by decide) positive
  -- the written digits are one such run, and there is no other of the length
  have filled := natural?_eq_some_iff.1 (natural?_zeroFill width n)
  constructor
  · rintro ⟨long, read⟩
    obtain ⟨-, all, value⟩ := natural?_eq_some_iff.1 read
    have small : n < 10 ^ width := by
      rw [← value, ← long]
      exact ofDigitChars_lt all
    refine ⟨eq_of_ofDigitChars_eq all filled.2.1 ?_ (value.trans filled.2.2.symm), small⟩
    rw [long, length_zeroFill, Nat.max_eq_left (short.2 small)]
  · intro ⟨written, small⟩
    rw [written]
    refine ⟨?_, natural?_zeroFill width n⟩
    rw [length_zeroFill, Nat.max_eq_left (short.2 small)]

/-- The only digits without a leading zero that stand for a number are the written ones. -/
theorem eq_toDigits_iff {digits : List Char} {n : Nat} :
    digits = Nat.toDigits 10 n ↔
      natural? digits = some n ∧ ¬ (digits.head? = some '0' ∧ 1 < digits.length) := by
  constructor
  · rintro rfl
    refine ⟨natural?_toDigits n, fun ⟨zero, long⟩ => ?_⟩
    obtain ⟨rest, written⟩ := List.head?_eq_some_iff.1 zero
    obtain ⟨-, all, value⟩ := natural?_eq_some_iff.1 (natural?_toDigits n)
    rw [written] at all value long
    rw [List.length_cons, Nat.lt_add_left_iff_pos] at long
    -- the digits behind the zero stand for the number as well, so fewer were written
    rw [ofDigitChars_cons, show '0'.toNat - '0'.toNat = 0 from rfl, Nat.mul_zero,
      Nat.zero_add] at value
    have small : n < 10 ^ rest.length := value ▸ ofDigitChars_lt (List.forall_mem_cons.1 all).2
    have short := (Nat.length_toDigits_le_iff (by decide) long).2 small
    rw [written, List.length_cons] at short
    exact Nat.not_succ_le_self _ short
  · intro ⟨read, noZero⟩
    have nonempty : digits ≠ [] := (natural?_eq_some_iff.1 read).1
    obtain ⟨filled, -⟩ := (hasDigits_iff (List.length_pos_iff.2 nonempty)).1 ⟨rfl, read⟩
    rw [zeroFill, String.toList_append, String.toList_ofList, toList_toString] at filled
    -- if there are zeros, the first one leads
    cases zeros : digits.length - (toString n).length with
    | zero => rw [filled, zeros, List.replicate_zero, List.nil_append]
    | succ more =>
      rw [zeros, List.replicate_succ, List.cons_append] at filled
      refine absurd ⟨?_, ?_⟩ noZero
      · rw [filled, List.head?_cons]
      · have written := List.length_pos_iff.2 (Nat.toDigits_ne_nil (b := 10) (n := n))
        rw [filled, List.length_cons, List.length_append]
        omega

end PlanCompiler.Numeral
