import PlanCompiler.Proofs.Code.Quiet

/-!
# Call sites in the generated program

A function is called where its name stands in front of a parenthesis, outside of string literals,
unless a type stands in front of the name, which declares the function. Where code is put together,
its call sites add up, as long as no name comes to stand in front of a parenthesis or behind a type
that way.

## Main definitions

* `Lexeme.callSites`, `callSites`: the number of places where a text calls a function;
* `Code.sites`: the number of checked divisions in code;
* `Code.HaveSites`: the number of checked divisions in the code of some lines.

## Main results

* `Lexeme.callSites_append`: the call sites of texts that are put together;
* `Code.sites_help`: the checked divisions in a call of a helper function;
* `Code.HaveSites.callSites_linesText_append`: the call sites of a text are those of its lines.
-/

namespace PlanCompiler

open Lexeme (scan after startsWord endsWord)

namespace Lexeme

/-- A word in front of a name makes it a declared one, unless it is a word that starts a
statement. -/
def declares : Lexeme → Bool
  | .word chars => !Scope.keywords.contains (String.ofList chars)
  | .literal | .sign _ => false

/-- The number of calls of a function; `declared` says whether the first lexeme is a declared
name. -/
def callSites (function : List Char) (declared : Bool) : List Lexeme → Nat
  | [] => 0
  | first :: rest =>
    (if first = .word function ∧ ¬ declared ∧ rest.head? = some (.sign '(') then 1 else 0) +
      callSites function first.declares rest

variable {function : List Char} {declared : Bool} {front back : List Lexeme}

/-- The calls in lexemes that are put together, unless they start one over the seam. -/
theorem callSites_append
    (seam : front.getLast? = some (.word function) → back.head? ≠ some (.sign '(')) :
    callSites function declared (front ++ back) = callSites function declared front +
      callSites function (front.getLast?.elim declared declares) back := by
  -- each lexeme is judged by its two neighbours, so only the last one in front can see the seam
  induction front generalizing declared with
  | nil => exact (Nat.zero_add _).symm
  | cons first rest ih =>
    cases rest with
    | nil =>
      have noCall : ¬ (first = .word function ∧ ¬ declared ∧ back.head? = some (.sign '(')) :=
        fun ⟨isName, _, opens⟩ => seam (congrArg some isName) opens
      have noCall' : ¬ (first = .word function ∧ ¬ declared ∧
          ([] : List Lexeme).head? = some (.sign '(')) :=
        fun ⟨_, _, opens⟩ => nomatch opens
      rw [List.singleton_append, callSites, callSites, if_neg noCall, if_neg noCall']
      exact (Nat.zero_add _).trans (Nat.zero_add _).symm
    | cons next rest =>
      -- the last lexeme stands in the rest
      have same : (first :: next :: rest).getLast? = (next :: rest).getLast? :=
        List.getLast?_cons_cons
      obtain ⟨last, found⟩ : ∃ last, (next :: rest).getLast? = some last :=
        ⟨_, List.getLast?_eq_some_getLast (List.cons_ne_nil next rest)⟩
      have others := @ih first.declares (same ▸ seam)
      rw [found] at others
      rw [same, found]
      show _ + callSites function first.declares (next :: rest ++ back) =
        _ + callSites function first.declares (next :: rest) + _
      rw [others, Nat.add_assoc]
      rfl

/-- A function that is not mentioned is not called. -/
theorem callSites_of_notMem {lexemes : List Lexeme} (silent : .word function ∉ lexemes) :
    callSites function declared lexemes = 0 := by
  induction lexemes generalizing declared with
  | nil => rfl
  | cons first rest ih =>
    rw [List.mem_cons, not_or] at silent
    rw [callSites, if_neg fun call => silent.1 call.1.symm, ih silent.2]

/-- Behind a sign nothing is declared. -/
theorem callSites_append_of_sign {c : Char} (last : front.getLast? = some (.sign c)) :
    callSites function declared (front ++ back) =
      callSites function declared front + callSites function false back := by
  rw [callSites_append (by rw [last]; exact nofun), last]
  rfl

/-- Lexemes that do not mention a function add no calls. -/
theorem callSites_append_of_notMem (silent : .word function ∉ back)
    (noParenthesis : back.head? ≠ some (.sign '(')) :
    callSites function declared (front ++ back) = callSites function declared front := by
  rw [callSites_append fun _ => noParenthesis, callSites_of_notMem silent, Nat.add_zero]

end Lexeme

/-- The number of places where a text calls a function, outside of string literals. The place that
defines the function is none of them. -/
def callSites (function text : String) : Nat :=
  Lexeme.callSites function.toList false (scan .outside text.toList)

/-- A definition is no call, a string literal has none, and a result may be divided again. -/
example :
    Lexeme.callSites "f".toList false (scan .outside
      "static int f(int a)\n\treturn g(\"f(1)\") + f(f(2));\n".toList) = 2 := by
  decide +kernel

/-! ## Call sites of code -/

namespace Code

variable {a b : Code}

/-- The number of checked divisions in code. -/
def sites (code : Code) : Nat := Lexeme.callSites divideWord false code.lexemesByPiece

/-- Quiet code has no checked division. -/
theorem IsQuiet.sites_eq (quiet : a.IsQuiet) : a.sites = 0 :=
  Lexeme.callSites_of_notMem quiet.notMem_lexemesByPiece

/-- A text that can stand in front of a checked division: its last lexeme is a sign. -/
def opensText (chars : List Char) : Bool :=
  !(scan .outside chars).contains (.word divideWord) &&
    (scan .outside chars).getLast?.any fun last => match last with
      | .sign _ => true
      | .word _ | .literal => false

/-- A text that can stand behind any code, as it opens no parenthesis. -/
def closesText (chars : List Char) : Bool :=
  !(scan .outside chars).contains (.word divideWord) &&
    (scan .outside chars).head? ≠ some (.sign '(')

/-- A text that can stand in front of a checked division mentions none and ends in a sign. -/
theorem notMem_and_getLast?_of_opensText {chars : List Char} (opens : opensText chars = true) :
    .word divideWord ∉ scan .outside chars ∧
      ∃ c, (scan .outside chars).getLast? = some (.sign c) := by
  rw [opensText, Bool.and_eq_true, Bool.not_eq_true', ← Bool.not_eq_true, List.contains_iff_mem,
    Option.any_eq_true] at opens
  obtain ⟨silent, last, found, isSign⟩ := opens
  cases last with
  | sign c => exact ⟨silent, c, found⟩
  | word | literal => cases isSign

section

variable {fixed : String} {chars : List Char} (spelled : String.ofList chars = fixed)
include spelled

/-- A text in front of code has no checked division. -/
theorem sites_text (opens : opensText chars = true) : (fixed : Code).sites = 0 := by
  rw [sites, lexemesByPiece_text spelled,
    Lexeme.callSites_of_notMem (notMem_and_getLast?_of_opensText opens).1]

/-- A text behind code adds no checked division. -/
theorem sites_append_text (closes : closesText chars = true) :
    (a ++ (fixed : Code)).sites = a.sites := by
  rw [closesText, Bool.and_eq_true, Bool.not_eq_true', ← Bool.not_eq_true, List.contains_iff_mem,
    decide_eq_true_iff] at closes
  rw [sites, lexemesByPiece_append, lexemesByPiece_text spelled,
    Lexeme.callSites_append_of_notMem closes.1 closes.2, sites]

/-- A text in front of code adds no checked division. -/
theorem sites_text_append (opens : opensText chars = true) :
    ((fixed : Code) ++ b).sites = b.sites := by
  obtain ⟨silent, c, last⟩ := notMem_and_getLast?_of_opensText opens
  rw [sites, lexemesByPiece_append, lexemesByPiece_text spelled,
    Lexeme.callSites_append_of_sign last, Lexeme.callSites_of_notMem silent, Nat.zero_add, sites]

/-- The checked divisions on both sides of a text are counted one by one. -/
theorem sites_append_text_append (opens : opensText chars = true) :
    (a ++ (fixed : Code) ++ b).sites = (a ++ (fixed : Code)).sites + b.sites := by
  obtain ⟨silent, c, last⟩ := notMem_and_getLast?_of_opensText opens
  have last' : (a ++ (fixed : Code)).lexemesByPiece.getLast? = some (.sign c) := by
    rw [lexemesByPiece_append, lexemesByPiece_text spelled, List.getLast?_append, last]
    rfl
  rw [sites, lexemesByPiece_append, Lexeme.callSites_append_of_sign last', sites, sites]

/-- Code joined by a separator has the checked divisions of its parts. -/
theorem sites_separated (opens : opensText chars = true) (closes : closesText chars = true)
    (parts : List Code) : (separated fixed parts).sites = (parts.map sites).sum := by
  induction parts with
  | nil => rfl
  | cons part rest ih =>
    cases rest with
    | nil => rfl
    | cons next rest =>
      rw [separated, sites_append_text_append spelled opens, sites_append_text spelled closes, ih]
      · rfl
      · exact List.cons_ne_nil next rest

end

/-- Blanks have no lexemes. -/
theorem sites_append_blank_append : (a ++ ((" " : String) : Code) ++ b).sites = (a ++ b).sites := by
  have blank : (((" " : String) : Code)).lexemesByPiece = [] :=
    lexemesByPiece_text (rfl : String.ofList _ = " ")
  rw [sites, lexemesByPiece_append, lexemesByPiece_append, blank, List.append_nil, sites,
    lexemesByPiece_append]

/-- A call of a helper function is a checked division or none, and its arguments have theirs. -/
theorem sites_help (helper : Helper) (arguments : List Code) :
    (help helper arguments).sites =
      (if helper = .divide then 1 else 0) + (arguments.map sites).sum := by
  have name : ((Name.helper helper : Name) : Code).lexemesByPiece =
      [.word (Name.helper helper).text.toList] :=
    (List.flatMap_singleton _ _).trans (Piece.lexemes_name (Name.isIdentifier_of_ne rfl))
  have opening : ((("(" : String) : Code)).lexemesByPiece = [.sign '('] :=
    lexemesByPiece_text (rfl : String.ofList _ = "(")
  -- the helper functions have different names
  have same : (Name.helper helper).text.toList = divideWord ↔ helper = .divide := by
    refine ⟨fun spelled => ?_, fun divide => divide ▸ toList_text_divide⟩
    by_contra other
    have quiet : (Name.helper helper).IsQuiet := other
    exact quiet.toList_text_ne spelled
  have parts : (arguments.map sites).sum = (separated ", " arguments).sites :=
    (sites_separated (rfl : String.ofList _ = ", ") (by decide) (by decide) _).symm
  rw [help, call, sites_append_text (rfl : String.ofList _ = ")") (by decide), parts, sites,
    lexemesByPiece_append, lexemesByPiece_append, name, opening, List.append_assoc,
    List.singleton_append, List.singleton_append, Lexeme.callSites, Lexeme.callSites, sites]
  simp [same, Lexeme.declares]

/-! ## Lines -/

/-- The number of checked divisions in the code of some lines, of which none ends inside of a string
literal, nor does a piece of it. -/
structure HaveSites (codes : List Code) (n : Nat) : Prop where
  closed : ∀ code ∈ codes, code.IsClosed
  outside : ∀ code ∈ codes, after .outside code.chars = .outside
  sum : (codes.map fun code => Lexeme.callSites divideWord false (scan .outside code.chars)).sum = n

namespace HaveSites

variable {codes codes' : List Code} {m n : Nat}

/-- No lines have no checked division. -/
theorem nil : HaveSites [] 0 := ⟨List.forall_mem_nil _, List.forall_mem_nil _, rfl⟩

/-- Lines in a row have the checked divisions of both parts. -/
theorem append (first : HaveSites codes m) (second : HaveSites codes' n) :
    HaveSites (codes ++ codes') (m + n) where
  closed := List.forall_mem_append.2 ⟨first.closed, second.closed⟩
  outside := List.forall_mem_append.2 ⟨first.outside, second.outside⟩
  sum := by rw [List.map_append, List.sum_append, first.sum, second.sum]

/-- The order of lines does not change the number of checked divisions. -/
theorem perm (counted : HaveSites codes n) (same : codes'.Perm codes) : HaveSites codes' n where
  closed code member := counted.closed code (same.subset member)
  outside code member := counted.outside code (same.subset member)
  sum := (same.map _).sum_eq.trans counted.sum

/-- One line has the checked divisions of its code. -/
theorem single {code : Code} (whole : code.IsWhole) : HaveSites [code] code.sites where
  closed := List.forall_mem_singleton.2 whole.isClosed
  outside := List.forall_mem_singleton.2 (after_chars whole)
  sum := by
    rw [List.map_singleton, List.sum_singleton, scan_chars whole]
    rfl

/-- A first line adds the checked divisions of its code. -/
theorem cons {code : Code} (whole : code.IsWhole) (others : HaveSites codes n) :
    HaveSites (code :: codes) (code.sites + n) :=
  (single whole).append others

/-- Quiet lines have no checked divisions. -/
theorem of_isQuiet (quiet : AllOf IsQuiet codes) : HaveSites codes 0 := by
  induction codes with
  | nil => exact nil
  | cons code rest ih =>
    obtain ⟨first, others⟩ := AllOf.cons_iff.1 quiet
    have counted := cons first.isWhole (ih others)
    rwa [first.sites_eq] at counted

/-- All checked divisions are in the first line. -/
theorem cons_of_isQuiet {code : Code} (whole : code.IsWhole) (sites : code.sites = n)
    (quiet : AllOf IsQuiet codes) : HaveSites (code :: codes) n :=
  sites ▸ cons whole (of_isQuiet quiet)

/-- Quiet lines in front of others. -/
theorem append_left (quiet : AllOf IsQuiet codes) (others : HaveSites codes' n) :
    HaveSites (codes ++ codes') n :=
  Nat.zero_add n ▸ (of_isQuiet quiet).append others

/-- Quiet lines behind others. -/
theorem append_right (others : HaveSites codes n) (quiet : AllOf IsQuiet codes') :
    HaveSites (codes ++ codes') n :=
  others.append (of_isQuiet quiet)

/-- The checked divisions of a block are those of its statements. -/
theorem block {head : Head} (quiet : head.IsQuiet) {body : List Statement}
    (inside : HaveSites (Statement.codesOfAll body) n) :
    HaveSites (Statement.block head body).codes n :=
  append_right (append_left quiet inside)
    (AllOf.cons_iff.2 ⟨by simp (disch := first | decide | exact rfl), .nil⟩)

end HaveSites

end Code

/-- The call sites of lines in front of a text. -/
theorem Scope.callSites_linesText_append {lines : List Line}
    (outside : ∀ line ∈ lines, after .outside line.code.chars = .outside) (rest : List Char) :
    Lexeme.callSites divideWord false (scan .outside (linesText lines ++ rest)) =
      (lines.map fun line => Lexeme.callSites divideWord false
        (scan .outside line.code.chars)).sum +
        Lexeme.callSites divideWord false (scan .outside rest) := by
  induction lines with
  | nil => exact (Nat.zero_add _).symm
  | cons line lines ih =>
    obtain ⟨first, others⟩ := List.forall_mem_cons.1 outside
    have text : linesText (line :: lines) ++ rest =
        List.replicate line.indent '\t' ++
          (line.code.chars ++ '\n' :: (linesText lines ++ rest)) := by
      rw [linesText, List.flatMap_cons, Line.text, String.toList_append, String.toList_append,
        String.toList_ofList, List.append_assoc, List.append_assoc, List.append_assoc]
      rfl
    have seam : endsWord line.code.chars = true →
        startsWord ('\n' :: (linesText lines ++ rest)) = false := fun _ => rfl
    -- a line ends with a sign, so that nothing behind it belongs to a call in it
    have newline : scan .outside ('\n' :: (linesText lines ++ rest)) =
        [.sign '\n'] ++ scan .outside (linesText lines ++ rest) := rfl
    rw [text, scan_tabs, Lexeme.scan_append fun _ => seam, first, newline, ← List.append_assoc,
      Lexeme.callSites_append_of_sign (List.getLast?_concat ..), Lexeme.callSites_append_of_notMem,
      ih others, List.map_cons, List.sum_cons, Nat.add_assoc]
    · simp
    · simp

/-- The calls in the text of lines are the checked divisions in their code, and those of the rest
come on top. -/
theorem Code.HaveSites.callSites_linesText_append {lines : List Line} {n : Nat}
    (counted : HaveSites (lines.map Line.code) n) (rest : List Char) :
    Lexeme.callSites divideWord false (scan .outside (Scope.linesText lines ++ rest)) =
      n + Lexeme.callSites divideWord false (scan .outside rest) := by
  obtain ⟨-, outside, rfl⟩ := counted
  rw [Scope.callSites_linesText_append (List.forall_mem_map.1 outside), List.map_map]
  rfl

end PlanCompiler
