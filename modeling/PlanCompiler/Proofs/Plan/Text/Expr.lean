import PlanCompiler.Proofs.Binary64.Text
import PlanCompiler.Proofs.Calendar
import PlanCompiler.Proofs.Plan.Agreement
import PlanCompiler.Proofs.Plan.Text.Printing
import PlanCompiler.Proofs.Plan.Text.Reading
import PlanCompiler.Proofs.Plan.Text.Tokens

/-!
# Reading printed expressions

The text of an expression is divided into tokens from which the expression is read again, exactly
if all its date literals lie in the years 0 to 9999 and it nests no deeper than the reader allows.
Connectives without operands are left out here, and so is every NaN but the one that their texts are
read as.

## Main definitions

* `Expr.IsReadBack`: a float literal is what its text is read as;
* `Expr.ReadFrom`: an expression is read from certain tokens.

## Main results

* `LineReader.literalOfText_column` and its siblings: the literals, one by one;
* `Expr.spelledBy_of_print`: a printed expression has tokens from which it is read.
-/

namespace PlanCompiler

namespace LineReader

/-! ## Literals -/

/-- A column is read back from its dollar sign and its index. -/
theorem literalOfText_column (index : UInt32) :
    literalOfText ("$" ++ toString index.toNat) = .ok (.column index) := by
  have chars : ("$" ++ toString index.toNat).toList = '$' :: (toString index.toNat).toList := by
    simp
  have digits : afterWord? "$" ('$' :: (toString index.toNat).toList) =
      some (toString index.toNat).toList := rfl
  rw [literalOfText, chars, List.head?_cons, if_pos rfl, columnOfText, chars, digits,
    Option.bind_some, Numeral.uint32?_toString]
  rfl

/-- What does not start with the name of a type is no date. -/
theorem dateLiteral?_eq_none {text : String} {first : Char} {rest : List Char}
    (chars : text.toList = first :: rest) (other : first ≠ 'd') : dateLiteral? text = none := by
  have word : afterWord? "date'" (first :: rest) = none := by
    rw [afterWord?, if_neg]
    show ¬ ('d' :: ['a', 't', 'e', '\'']).isPrefixOf (first :: rest) = true
    rw [List.isPrefixOf_cons_cons, Bool.and_eq_true, beq_iff_eq]
    exact fun both => other both.1.symm
  rw [dateLiteral?, chars, word]
  rfl

/-- An integer literal is read back from its text. -/
theorem literalOfText_int (value : Int64) :
    literalOfText (toString value.toInt) = .ok (.int value) := by
  -- neither a column nor a date starts with a digit or a minus sign
  obtain ⟨first, rest, chars, isDigit⟩ : ∃ first rest,
      (toString value.toInt).toList = first :: rest ∧ (first.isDigit = true ∨ first = '-') := by
    rw [Numeral.toList_toString_int]
    split
    · exact ⟨_, _, rfl, Or.inr rfl⟩
    · obtain ⟨first, rest, digits⟩ :=
        List.exists_cons_of_ne_nil (Nat.toDigits_ne_nil (b := 10) (n := value.toInt.natAbs))
      exact ⟨first, rest, digits,
        Or.inl (Numeral.isDigit_of_mem_toDigits (digits ▸ List.mem_cons_self))⟩
  have notColumn : ¬ (toString value.toInt).toList.head? = some '$' := by
    rw [chars]
    rintro ⟨⟩
    rcases isDigit with digit | minus
    · cases digit
    · cases minus
  have notDate : dateLiteral? (toString value.toInt) = none := by
    refine dateLiteral?_eq_none chars ?_
    rintro rfl
    rcases isDigit with digit | minus
    · cases digit
    · cases minus
  rw [literalOfText, if_neg notColumn, notDate]
  dsimp only
  rw [Numeral.int64?_toString]

/-- A float literal is read as the number that its text stands for. -/
theorem literalOfText_float (value : Binary64) :
    literalOfText value.planText = .ok (.float value.asRead) := by
  obtain ⟨first, rest, c, chars, member, other⟩ := value.exists_planText_eq_cons
  have class' := value.planText_chars (chars ▸ List.mem_cons_self : first ∈ value.planText.toList)
  have notColumn : ¬ value.planText.toList.head? = some '$' := by
    rw [chars]
    rintro ⟨⟩
    exact absurd class' (by decide)
  have notDate : dateLiteral? value.planText = none := by
    refine dateLiteral?_eq_none chars ?_
    rintro rfl
    exact absurd class' (by decide)
  -- a point or a letter after the first character keeps the literal from being an integer
  have notInt : Numeral.int64? value.planText.toList = none := by
    rw [Numeral.int64?, chars, Numeral.within?_eq_none member other]
    rfl
  rw [literalOfText, if_neg notColumn, notDate]
  dsimp only
  rw [notInt]
  dsimp only
  rw [Binary64.ofText?_planText_eq]

/-- A date literal is read exactly if its year has four digits. -/
theorem literalOfText_date {days : Int32} {date : CivilDate}
    (h : CivilDate.ofDays days = .ok date) (e : Expr) :
    literalOfText ("date'" ++ date.text ++ "'") = .ok e ↔
      (0 ≤ date.year.toInt ∧ date.year.toInt ≤ 9999) ∧ e = .date days := by
  have chars : ("date'" ++ date.text ++ "'").toList =
      'd' :: 'a' :: 't' :: 'e' :: '\'' :: (date.text.toList ++ ['\'']) := by
    simp
  have rest : afterWord? "date'" ("date'" ++ date.text ++ "'").toList =
      some (date.text.toList ++ ['\'']) := by
    rw [chars]
    rfl
  have literal : dateLiteral? ("date'" ++ date.text ++ "'") = some date.text := by
    rw [dateLiteral?, rest]
    simp [guard]
  rw [literalOfText, if_neg (by rw [chars, List.head?_cons]; decide), literal]
  dsimp only
  rw [Calendar.parseDate?_text h]
  -- beyond the four digits the literal is still taken for a date, so that it is no word at all
  by_cases inRange : 0 ≤ date.year.toInt ∧ date.year.toInt ≤ 9999
  · rw [if_pos inRange, Except.ok.injEq, and_iff_right inRange, eq_comm]
  · rw [if_neg inRange]
    exact ⟨nofun, fun both => absurd both.1 inRange⟩

/-! ## Words -/

section

open Token

/-- The digits of a number are one atom. -/
theorem isWord_toString (n : Nat) : IsWord (toString n) := by
  obtain ⟨first, rest, digits⟩ :=
    List.exists_cons_of_ne_nil (Nat.toDigits_ne_nil (b := 10) (n := n))
  have inside : ∀ c ∈ first :: rest, c.isDigit = true := fun c member =>
    Numeral.isDigit_of_mem_toDigits (digits ▸ member)
  refine isWord_of_toList (by rw [Numeral.toList_toString, digits]) ?_ fun c member =>
    isEnd_of_isDigit (inside c member)
  rintro rfl
  exact absurd (inside _ List.mem_cons_self) (by decide)

/-- A column's text is one atom. -/
theorem isWord_column (index : UInt32) : IsWord ("$" ++ toString index.toNat) :=
  IsWord.append (by decide) (isWord_toString index.toNat).2.2

/-- An integer's text is one atom. -/
theorem isWord_int (value : Int64) : IsWord (toString value.toInt) := by
  have digits := isWord_toString value.toInt.natAbs
  have chars := Numeral.toList_toString_int value.toInt
  by_cases negative : value.toInt < 0
  · rw [if_pos negative] at chars
    refine isWord_of_toList chars (by decide) ?_
    intro c member
    rcases List.mem_cons.1 member with rfl | digit
    · rfl
    · exact isEnd_of_isDigit (Numeral.isDigit_of_mem_toDigits digit)
  · rw [if_neg negative, ← Numeral.toList_toString] at chars
    rwa [IsWord, chars]

/-- A float's text is one atom. -/
theorem isWord_float (value : Binary64) : IsWord value.planText := by
  obtain ⟨first, rest, c, chars, -, -⟩ := value.exists_planText_eq_cons
  have class' : ∀ c ∈ first :: rest,
      c.isDigit = true ∨ c ∈ ['-', '.', 'i', 'n', 'f', 'N', 'a'] := by
    intro c member
    exact value.planText_chars (chars ▸ member)
  refine isWord_of_toList chars ?_ ?_
  · rintro rfl
    exact absurd (class' _ List.mem_cons_self) (by decide)
  · intro c member
    rcases class' c member with digit | other
    · exact isEnd_of_isDigit digit
    · revert other
      exact @isEnd_eq_false_of_all ['-', '.', 'i', 'n', 'f', 'N', 'a'] (by decide) c

/-- A date's text is one atom. -/
theorem isWord_date (date : CivilDate) : IsWord ("date'" ++ date.text ++ "'") := by
  have inside : ∀ c ∈ date.text.toList, isEnd c = false := by
    intro c member
    rcases CivilDate.isDigit_or_hyphen_of_mem_text member with digit | rfl
    · exact isEnd_of_isDigit digit
    · rfl
  exact IsWord.append (IsWord.append (by decide) inside) (isEnd_eq_false_of_all (by decide))

end

/-! ## Expressions from tokens -/

/-- No operator is written like a connective or one of the other operations. -/
theorem operation_symbol (operand : LineReader Expr) (op : BinaryOp) :
    operation operand op.symbol = do
      let lhs ← operand
      let rhs ← operand
      return .binary op lhs rhs := by
  rw [operation, if_neg (by cases op <;> decide), if_neg (by cases op <;> decide),
    if_neg (by cases op <;> decide), if_neg (by cases op <;> decide),
    if_neg (by cases op <;> decide), BinaryOp.ofSymbol?_eq_some_iff.2 rfl]

/-- The word of a connective is read as that connective. -/
theorem operation_word (operand : LineReader Expr) (connective : Connective) :
    operation operand connective.word = operandsOf connective operand := by
  cases connective <;> rfl

namespace Reads

variable {levels : Nat} {P Q S : Prop} {e lhs rhs : Expr} {tokens others further : List Token}

/-- A parenthesis is closed next. -/
def closing (rest : List Token) : Prop := rest.head? = some .closeParen

/-- An atom is read as an expression exactly if it is a literal's text. -/
theorem expr_atom {text : String} (h : ∀ e', literalOfText text = .ok e' ↔ P ∧ e' = e) :
    Reads anything (expr (levels + 1)) [.atom text] P e :=
  (next "expression" (.atom text)).bind_of_true (lift h)

/-- A quoted text is read as a text literal. -/
theorem expr_quoted (text : String) :
    Reads anything (expr (levels + 1)) [.quoted text] True (.text text) :=
  (next "expression" (.quoted text)).bind_of_true (pure anything (Expr.text text))

/-- An operation stands in parentheses. -/
theorem expr_paren {word : String} (h : Reads closing (operation (expr levels) word) tokens P e) :
    Reads anything (expr (levels + 1))
      (.openParen :: .atom word :: (tokens ++ [.closeParen])) P e := by
  have close : Reads anything
      (LineReader.expect .closeParen >>= fun _ => (Pure.pure e : LineReader Expr))
      [.closeParen] True e :=
    (expect .closeParen).bind_of_true (pure anything e)
  refine (next "expression" .openParen).bind_of_true ?_
  refine (atom "operator" word).bind_of_true ?_
  -- the operands of a connective need to see where they end
  have follow : ∀ rest, anything rest → closing ([.closeParen] ++ rest) := fun _ _ => rfl
  exact (h.bind close follow).congr (iff_of_eq (and_true P))

/-- The two operands of an operator. -/
theorem operation_binary (op : BinaryOp) (first : Reads anything (expr levels) tokens P lhs)
    (second : Reads anything (expr levels) others Q rhs) :
    Reads anything (operation (expr levels) op.symbol) (tokens ++ others) (P ∧ Q)
      (.binary op lhs rhs) := by
  rw [operation_symbol]
  exact first.bind (second.map (Expr.binary op lhs)) fun _ _ => trivial

/-- A negation is read from its operand. -/
theorem operation_not (h : Reads anything (expr levels) tokens P e) :
    Reads anything (operation (expr levels) "not") tokens P (.not e) :=
  h.map Expr.not

/-- A case is read from its condition and its two alternatives. -/
theorem operation_case {condition consequent alternative : Expr}
    (first : Reads anything (expr levels) tokens P condition)
    (second : Reads anything (expr levels) others Q consequent)
    (third : Reads anything (expr levels) further S alternative) :
    Reads anything (operation (expr levels) "case") (tokens ++ (others ++ further)) (P ∧ Q ∧ S)
      (.case condition consequent alternative) :=
  first.bind (second.bind (third.map (Expr.case condition consequent)) fun _ _ => trivial)
    fun _ _ => trivial

/-- A pattern match is read from its operand and the quoted pattern. -/
theorem operation_like (pattern : String) (h : Reads anything (expr levels) tokens P e) :
    Reads anything (operation (expr levels) "like") (tokens ++ [.quoted pattern]) P
      (.like e pattern) := by
  have whole : Reads anything (operation (expr levels) "like") (tokens ++ [.quoted pattern])
      (P ∧ True) (.like e pattern) := by
    refine h.bind ((next "like pattern" (.quoted pattern)).bind_of_true ?_) fun _ _ => trivial
    exact pure anything (Expr.like e pattern)
  exact whole.congr (iff_of_eq (and_true P))

/-- The operands of a connective end where the parenthesis is closed. -/
theorem operation_junction (connective : Connective) {operands : List Expr}
    {groups : List (List Token)} {R : Expr → Prop} (nonempty : operands ≠ [])
    (h : List.Forall₂ (fun operand group => Reads anything (expr levels) group (R operand) operand ∧
      ∀ rest, operandsEnd (group ++ rest) = false) operands groups)
    (filled : ∀ group ∈ groups, group ≠ []) :
    Reads closing (operation (expr levels) connective.word) groups.flatten
      (∀ operand ∈ operands, R operand) (.junction connective operands) := by
  have ends : ∀ rest, closing rest → operandsEnd rest = true := by
    rintro (- | ⟨first, rest⟩) close
    · rfl
    · cases close
      rfl
  -- the check after the loop passes, since there are operands
  have checked : Reads closing (do
      if operands.isEmpty then fail (.noOperands connective)
      return Expr.junction connective operands) [] True (.junction connective operands) := by
    rw [if_neg (by simpa using nonempty)]
    exact pure closing _
  rw [operation_word, ← List.append_nil groups.flatten]
  exact ((many h filled).bind checked ends).congr (iff_of_eq (and_true _))

end Reads

/-- An operation stands in parentheses, one level deeper. -/
theorem ReportsNesting.paren {levels : Nat} {word : String} {tokens : List Token}
    (h : ReportsNesting (operation (expr levels) word) tokens) :
    ReportsNesting (expr (levels + 1))
      (.openParen :: .atom word :: (tokens ++ [.closeParen])) := by
  refine .after ?_ (Reads.next "expression" .openParen)
  refine .after ?_ (Reads.atom "operator" word)
  exact h.bind.append _

end LineReader

namespace Expr

open LineReader Token

/-- A float literal is the number that its text is read as. -/
def IsReadBack : Expr → Prop
  | .float value => value.asRead = value
  | _ => True

/-- A float literal that is a number is read back from its text. -/
theorem isReadBack_of_isNaN {e : Expr} (number : e.isNaN = false) : e.IsReadBack := by
  cases e with
  | float value => exact Binary64.asRead_eq_self number
  | _ => trivial

/-- An expression is read from certain tokens, wherever it stands, if its date literals are read
back, and otherwise no expression is. If it nests too deeply, that is reported. -/
structure ReadFrom (e : Expr) (tokens : List Token) : Prop where
  /-- There are tokens. -/
  nonempty : tokens ≠ []
  /-- The first token does not end a list of operands. -/
  starts : ∀ rest, operandsEnd (tokens ++ rest) = false
  /-- The reader returns the expression. -/
  reads : ∀ levels, e.depth ≤ levels →
    Reads anything (expr levels) tokens (∀ part ∈ e.parts, part.HasShortYear) e
  /-- The reader finds the part of the expression that is too deep. -/
  nests : ∀ levels, levels < e.depth → (∀ part ∈ e.parts, part.HasShortYear) →
    ReportsNesting (expr levels) tokens

/-- An operand is read if it nests no deeper than the reader allows, and else reported. -/
theorem ReadFrom.operand {α : Type} {e : Expr} {tokens others : List Token} {levels : Nat}
    {step : Expr → LineReader α} (read : e.ReadFrom tokens)
    (short : ∀ part ∈ e.parts, part.HasShortYear)
    (second : e.depth ≤ levels → ReportsNesting (step e) others) :
    ReportsNesting (expr levels >>= step) (tokens ++ others) := by
  rcases Nat.lt_or_ge levels e.depth with deep | shallow
  · exact (read.nests levels deep short).bind.append others
  · exact (second shallow).after ((read.reads levels shallow).congr (iff_true_intro short))

/-- An expression that is a single token. -/
theorem ReadFrom.leaf {e : Expr} {token : Token} {P : Prop} (flat : e.depth = 1)
    (parts : (∀ part ∈ e.parts, part.HasShortYear) ↔ P) (starts : operandsEnd [token] = false)
    (reads : ∀ levels, Reads anything (expr (levels + 1)) [token] P e) : e.ReadFrom [token] where
  nonempty := List.cons_ne_nil _ _
  starts rest := by
    cases token <;> first | rfl | cases starts
  reads levels deep := by
    obtain ⟨levels, rfl⟩ : ∃ fewer, levels = fewer + 1 :=
      ⟨levels - 1, by have := e.one_le_depth; omega⟩
    exact (reads levels).congr parts.symm
  nests levels deep _ := by
    obtain rfl : levels = 0 := by omega
    exact fun _ => rfl

/-- An expression that stands in parentheses. -/
theorem ReadFrom.paren {e : Expr} {word : String} {tokens : List Token} {P : Prop}
    (parts : (∀ part ∈ e.parts, part.HasShortYear) ↔ P)
    (reads : ∀ levels, e.depth ≤ levels + 1 →
      Reads Reads.closing (operation (expr levels) word) tokens P e)
    (nests : ∀ levels, levels + 1 < e.depth → P →
      ReportsNesting (operation (expr levels) word) tokens) :
    e.ReadFrom (.openParen :: .atom word :: (tokens ++ [.closeParen])) where
  nonempty := List.cons_ne_nil _ _
  starts _ := rfl
  reads levels deep := by
    -- an expression has a level of its own, which the parenthesis uses up
    obtain ⟨levels, rfl⟩ : ∃ fewer, levels = fewer + 1 :=
      ⟨levels - 1, by have := e.one_le_depth; omega⟩
    exact (Reads.expr_paren (reads levels deep)).congr parts.symm
  nests levels deep short := by
    cases levels with
    | zero => exact fun _ => rfl
    | succ levels => exact (nests levels deep (parts.1 short)).paren

/-- A text is divided into tokens from which an expression is read. -/
def SpelledBy (e : Expr) (text : String) : Prop :=
  ∃ tokens, Scans text.toList tokens ∧ e.ReadFrom tokens

namespace SpelledBy

variable {lhs rhs condition consequent alternative operand value : Expr}
  {first second third : String}

/-- A column is spelled by its dollar sign and its index. -/
theorem column (index : UInt32) : (Expr.column index).SpelledBy ("$" ++ toString index.toNat) := by
  refine ⟨_, .word (isWord_column index), .leaf (P := True) rfl ?_ rfl fun levels => ?_⟩
  · simp [parts, HasShortYear]
  · exact Reads.expr_atom fun e => by
      rw [literalOfText_column, Except.ok.injEq, true_and, eq_comm]

/-- An integer literal is spelled by its digits. -/
theorem int (value : Int64) : (Expr.int value).SpelledBy (toString value.toInt) := by
  refine ⟨_, .word (isWord_int value), .leaf (P := True) rfl ?_ rfl fun levels => ?_⟩
  · simp [parts, HasShortYear]
  · exact Reads.expr_atom fun e => by
      rw [literalOfText_int, Except.ok.injEq, true_and, eq_comm]

/-- A float literal that is read back is spelled by its text. -/
theorem float {value : Binary64} (readBack : value.asRead = value) :
    (Expr.float value).SpelledBy value.planText := by
  refine ⟨_, .word (isWord_float value), .leaf (P := True) rfl ?_ rfl fun levels => ?_⟩
  · simp [parts, HasShortYear]
  · exact Reads.expr_atom fun e => by
      rw [literalOfText_float, readBack, Except.ok.injEq, true_and, eq_comm]

/-- A date literal is spelled by its date. -/
theorem date {days : Int32} {date : CivilDate} (h : CivilDate.ofDays days = .ok date) :
    (Expr.date days).SpelledBy ("date'" ++ date.text ++ "'") := by
  refine ⟨_, .word (isWord_date date),
    .leaf (P := 0 ≤ date.year.toInt ∧ date.year.toInt ≤ 9999) rfl ?_ rfl fun levels => ?_⟩
  -- a day number has one date
  · simp only [parts, List.mem_singleton, forall_eq, HasShortYear, h, Except.ok.injEq]
    constructor
    · rintro ⟨_, same, inRange⟩
      exact same ▸ inRange
    · exact fun inRange => ⟨date, rfl, inRange⟩
  · exact Reads.expr_atom (literalOfText_date h)

/-- A text literal is spelled by its quoted text. -/
theorem text (value : String) : (Expr.text value).SpelledBy (Text.quoted value) := by
  refine ⟨_, .quoted value, .leaf (P := True) rfl ?_ rfl fun levels => Reads.expr_quoted value⟩
  simp [parts, HasShortYear]

/-- A binary operation is spelled by its symbol and the spellings of its operands. -/
theorem binary (op : BinaryOp) (left : lhs.SpelledBy first) (right : rhs.SpelledBy second) :
    (Expr.binary op lhs rhs).SpelledBy
      ("(" ++ op.symbol ++ " " ++ first ++ " " ++ second ++ ")") := by
  obtain ⟨tokens, scans, reads⟩ := left
  obtain ⟨others, scans', reads'⟩ := right
  -- the text, written as the scanner divides it
  have chars : ("(" ++ op.symbol ++ " " ++ first ++ " " ++ second ++ ")").toList =
      '(' :: (op.symbol.toList ++
        ((' ' :: (first.toList ++ ' ' :: (second.toList ++ []))) ++ [')'])) := by
    simp
  have word : IsWord op.symbol := by cases op <;> decide
  have operands := Scans.operand scans (Scans.operand scans' .nil nofun) (.cons rfl)
  rw [SpelledBy, chars]
  refine ⟨_, Scans.paren word operands (.cons rfl),
    .paren (forall_parts_binary.trans (and_iff_right trivial)) (fun levels deep => ?_)
      fun levels deep short => ?_⟩
  all_goals
    rw [depth] at deep
    rw [List.append_nil]
  · exact (Reads.operation_binary op (reads.reads levels (by omega))
      (reads'.reads levels (by omega))).mono fun _ _ => trivial
  · rw [operation_symbol]
    exact reads.operand short.1 fun shallow => (reads'.nests levels (by omega) short.2).bind

/-- The operands of a connective are spelled one after the other. -/
theorem junction (connective : Connective) {operands : List Expr} {groups : List (List Token)}
    {each : String} (nonempty : operands ≠ []) (scans : Scans each.toList groups.flatten)
    (separates : Separates each.toList) (reads : List.Forall₂ ReadFrom operands groups) :
    (Expr.junction connective operands).SpelledBy ("(" ++ connective.word ++ each ++ ")") := by
  have chars : ("(" ++ connective.word ++ each ++ ")").toList =
      '(' :: (connective.word.toList ++ (each.toList ++ [')'])) := by
    simp
  have word : IsWord connective.word := by cases connective <;> decide
  have filled : ∀ group ∈ groups, group ≠ [] := by
    intro group member
    obtain ⟨operand, -, read⟩ := exists_of_mem_of_forall₂ reads.flip member
    exact read.nonempty
  rw [SpelledBy, chars]
  refine ⟨_, Scans.paren word scans separates,
    .paren (forall_parts_junction.trans (and_iff_right trivial)) (fun levels deep => ?_)
      fun levels deep short => ?_⟩
  · rw [depth, Nat.add_comm, Nat.add_le_add_iff_right, maxDepthOf_le_iff] at deep
    refine Reads.operation_junction connective nonempty ?_ filled
    refine ((List.forall₂_and_left operands groups).2 ⟨deep, reads⟩).imp ?_
    rintro operand group ⟨deep, read⟩
    exact ⟨read.reads levels deep, read.starts⟩
  · rw [depth, Nat.add_comm 1, Nat.add_lt_add_iff_right, ← Nat.not_le, maxDepthOf_le_iff] at deep
    push Not at deep
    -- the operands in front of one that is too deep are read, unless they are too deep as well
    obtain ⟨operand, member, tooDeep⟩ := deep
    have each := (List.forall₂_and_left operands groups).2 ⟨short, reads⟩
    rw [operation_word]
    refine ReportsNesting.bind (.many (each.imp ?_) ?_ filled)
    · rintro operand group ⟨short, read⟩
      refine ⟨?_, read.starts⟩
      rcases Nat.lt_or_ge levels operand.depth with deep | shallow
      · exact .inr (read.nests levels deep short)
      · exact .inl ((read.reads levels shallow).congr (iff_true_intro short))
    · obtain ⟨group, among, read⟩ := exists_of_mem_of_forall₂ reads member
      exact ⟨group, among, read.nests levels tooDeep (short operand member)⟩

/-- A negation is spelled by the spelling of its operand. -/
theorem not (h : operand.SpelledBy first) :
    (Expr.not operand).SpelledBy ("(not " ++ first ++ ")") := by
  obtain ⟨tokens, scans, reads⟩ := h
  have chars : ("(not " ++ first ++ ")").toList =
      '(' :: ("not".toList ++ ((' ' :: (first.toList ++ [])) ++ [')'])) := by
    simp
  rw [SpelledBy, chars]
  refine ⟨_, Scans.paren (by decide) (Scans.operand scans .nil nofun) (.cons rfl),
    .paren (forall_parts_not.trans (and_iff_right trivial)) (fun levels deep => ?_)
      fun levels deep short => ?_⟩
  all_goals
    rw [depth] at deep
    rw [List.append_nil]
  · exact (Reads.operation_not (reads.reads levels (by omega))).mono fun _ _ => trivial
  · exact (reads.nests levels (by omega) short).bind

/-- A case is spelled by the spellings of its three parts. -/
theorem case (h : condition.SpelledBy first) (h' : consequent.SpelledBy second)
    (h'' : alternative.SpelledBy third) :
    (Expr.case condition consequent alternative).SpelledBy
      ("(case " ++ first ++ " " ++ second ++ " " ++ third ++ ")") := by
  obtain ⟨tokens, scans, reads⟩ := h
  obtain ⟨tokens', scans', reads'⟩ := h'
  obtain ⟨tokens'', scans'', reads''⟩ := h''
  -- the text, written as the scanner divides it
  have chars : ("(case " ++ first ++ " " ++ second ++ " " ++ third ++ ")").toList =
      '(' :: ("case".toList ++ ((' ' :: (first.toList ++ ' ' :: (second.toList ++
        ' ' :: (third.toList ++ [])))) ++ [')'])) := by
    simp
  have operands := Scans.operand scans
    (Scans.operand scans' (Scans.operand scans'' .nil nofun) (.cons rfl)) (.cons rfl)
  rw [SpelledBy, chars]
  refine ⟨_, Scans.paren (by decide) operands (.cons rfl),
    .paren (forall_parts_case.trans (and_iff_right trivial)) (fun levels deep => ?_)
      fun levels deep short => ?_⟩
  all_goals
    rw [depth] at deep
    rw [List.append_nil]
  · exact (Reads.operation_case (reads.reads levels (by omega)) (reads'.reads levels (by omega))
      (reads''.reads levels (by omega))).mono fun _ _ => trivial
  -- the first operand that nests too deeply is reported
  · obtain ⟨short, short', short''⟩ := short
    exact reads.operand short fun shallow => reads'.operand short' fun shallow' =>
      (reads''.nests levels (by omega) short'').bind

/-- A pattern match is spelled by its operand's spelling and the quoted pattern. -/
theorem like (h : value.SpelledBy first) (pattern : String) :
    (Expr.like value pattern).SpelledBy
      ("(like " ++ first ++ " " ++ Text.quoted pattern ++ ")") := by
  obtain ⟨tokens, scans, reads⟩ := h
  -- the text, written as the scanner divides it
  have chars : ("(like " ++ first ++ " " ++ Text.quoted pattern ++ ")").toList =
      '(' :: ("like".toList ++
        ((' ' :: (first.toList ++ ' ' :: ((Text.quoted pattern).toList ++ [])))
        ++ [')'])) := by
    simp
  have operands := Scans.operand scans (Scans.operand (.quoted pattern) .nil nofun) (.cons rfl)
  rw [SpelledBy, chars]
  refine ⟨_, Scans.paren (by decide) operands (.cons rfl),
    .paren (forall_parts_like.trans (and_iff_right trivial)) (fun levels deep => ?_)
      fun levels deep short => ?_⟩
  all_goals
    rw [depth] at deep
    rw [List.append_nil]
  · exact (Reads.operation_like pattern (reads.reads levels (by omega))).mono fun _ _ => trivial
  · exact (reads.nests levels (by omega) short).bind.append _

end SpelledBy

/-- Printed expressions one after the other, each after a blank. -/
theorem exists_groups_of_printEach {operands : List Expr}
    (h : ∀ operand ∈ operands, ∀ text, operand.print = .ok text → operand.SpelledBy text) :
    ∀ {text : String}, printEach operands = .ok text →
      ∃ groups, Scans text.toList groups.flatten ∧ Separates text.toList ∧
        List.Forall₂ ReadFrom operands groups := by
  induction operands with
  | nil =>
    rintro _ ⟨⟩
    exact ⟨[], .nil, nofun, .nil⟩
  | cons first rest ih =>
    intro text printed
    obtain ⟨head, firstPrinted, tail, restPrinted, rfl⟩ := printEach_cons_eq_ok_iff.1 printed
    obtain ⟨tokens, scans, reads⟩ := h first List.mem_cons_self head firstPrinted
    obtain ⟨groups, scansRest, separates, readsRest⟩ :=
      ih (fun operand member => h operand (List.mem_cons_of_mem _ member)) restPrinted
    -- each operand has one blank in front of it
    have chars : (" " ++ head ++ tail).toList = ' ' :: (head.toList ++ tail.toList) := by simp
    rw [chars]
    exact ⟨tokens :: groups, Scans.operand scans scansRest separates, .cons rfl,
      .cons reads readsRest⟩

/-- A printed expression has tokens from which it is read. -/
theorem spelledBy_of_print {e : Expr} : ∀ {text : String}, e.print = .ok text →
    (∀ part ∈ e.parts, part.IsReadBack ∧ part.isEmptyJunction = false) → e.SpelledBy text := by
  induction e with
  | column index =>
    rintro _ ⟨⟩ -
    exact .column index
  | int value =>
    rintro _ ⟨⟩ -
    exact .int value
  | float value =>
    rintro _ ⟨⟩ plain
    exact .float (plain _ List.mem_cons_self).1
  | date days =>
    intro text printed _
    obtain ⟨civil, found, rfl⟩ := print_date_eq_ok_iff.1 printed
    exact .date found
  | text value =>
    rintro _ ⟨⟩ -
    exact .text value
  | binary op lhs rhs ihl ihr =>
    intro text printed plain
    obtain ⟨-, plainLeft, plainRight⟩ := forall_parts_binary.1 plain
    obtain ⟨left, leftPrinted, right, rightPrinted, rfl⟩ := print_binary_eq_ok_iff.1 printed
    exact .binary op (ihl leftPrinted plainLeft) (ihr rightPrinted plainRight)
  | junction connective operands ih =>
    intro text printed plain
    obtain ⟨⟨-, filled⟩, inside⟩ := forall_parts_junction.1 plain
    obtain ⟨each, eachPrinted, rfl⟩ := print_junction_eq_ok_iff.1 printed
    -- each operand is spelled by its own tokens
    obtain ⟨groups, scans, separates, reads⟩ := exists_groups_of_printEach
      (fun operand member text printed => ih operand member printed (inside operand member))
      eachPrinted
    exact .junction connective (isEmptyJunction_junction.1 filled) scans separates reads
  | not operand ih =>
    intro text printed plain
    obtain ⟨inner, innerPrinted, rfl⟩ := print_not_eq_ok_iff.1 printed
    exact .not (ih innerPrinted (forall_parts_not.1 plain).2)
  | case condition consequent alternative ihc iha ihb =>
    intro text printed plain
    obtain ⟨-, plainFirst, plainSecond, plainThird⟩ := forall_parts_case.1 plain
    obtain ⟨first, firstPrinted, second, secondPrinted, third, thirdPrinted, rfl⟩ :=
      print_case_eq_ok_iff.1 printed
    exact .case (ihc firstPrinted plainFirst) (iha secondPrinted plainSecond)
      (ihb thirdPrinted plainThird)
  | like value pattern ih =>
    intro text printed plain
    obtain ⟨inner, innerPrinted, rfl⟩ := print_like_eq_ok_iff.1 printed
    exact .like (ih innerPrinted (forall_parts_like.1 plain).2) pattern

end Expr

end PlanCompiler
