import PlanCompiler.Code.Definition
import PlanCompiler.Lowering.Pipeline
import PlanCompiler.Proofs.Code.Plain

/-!
# Reading statements

How the open scopes change when the lines of statements are read: plain lines change nothing, a
declaration adds a name to the innermost scope, and a block has a scope of its own. The code around
the open place of a pipeline opens scopes and closes them again behind whatever is put there.

## Main definitions

* `Scope.Reads`: the open scopes before and after some statements;
* `Scope.Closes`: code around an open place that leaves the scopes as they were.

## Main results

* `Scope.Reads.line`, `Scope.Reads.declare`, `Scope.Reads.block`: one rule for each statement;
* `Scope.Closes.append`: code around an open place that goes on from another one.
-/

namespace PlanCompiler

namespace Scope

open Lexeme Code

/-- The spellings of names. -/
def Names.spelled (scopes : Names) : Open := scopes.map (·.map fun name => name.text.toList)

/-- A word that the scopes see is the spelling of one of their names. -/
theorem Names.Sees.mem_spelled {scopes : Names} {word : List Char} (sees : scopes.Sees word) :
    word ∈ scopes.spelled.flatten := by
  obtain ⟨scope, isOpen, name, member, rfl⟩ := sees
  exact List.mem_flatten.2
    ⟨_, List.mem_map_of_mem isOpen, List.mem_map_of_mem (f := fun name => name.text.toList) member⟩

/-! ## Lines -/

/-- Blanks in front of a line. -/
theorem scan_tabs (indent : Nat) (chars : List Char) :
    scan .outside (List.replicate indent '\t' ++ chars) = scan .outside chars := by
  induction indent with
  | zero => rfl
  | succ indent ih =>
    rw [List.replicate_succ, List.cons_append, scan_cons_outside, if_neg (by decide),
      if_neg (by decide), if_pos (.inr rfl), ih]

/-- What a line mentions are its words that are variables. -/
theorem mem_of_mem_mentions {lexemes : List Lexeme} {chars : List Char}
    (member : chars ∈ mentions lexemes) :
    .word chars ∈ lexemes ∧ isVariable chars = true := by
  -- the cases are those of the search: what stands behind a point is skipped
  induction lexemes using mentions.induct with
  | case1 => cases member
  | case2 skipped rest ih =>
    rw [mentions] at member
    obtain ⟨inRest, ofNode⟩ := ih member
    exact ⟨List.mem_cons_of_mem _ (List.mem_cons_of_mem _ inRest), ofNode⟩
  | case3 first rest ofNode ih =>
    rw [mentions, if_pos ofNode] at member
    rcases List.mem_cons.1 member with rfl | member
    · exact ⟨List.mem_cons_self, ofNode⟩
    · exact ⟨List.mem_cons_of_mem _ (ih member).1, (ih member).2⟩
  | case4 first rest notOfNode ih =>
    rw [mentions, if_neg notOfNode] at member
    exact ⟨List.mem_cons_of_mem _ (ih member).1, (ih member).2⟩
  | case5 first rest noPoint noWord ih =>
    rw [mentions] at member
    · exact ⟨List.mem_cons_of_mem _ (ih member).1, (ih member).2⟩
    · exact noPoint
    · exact noWord

/-- A line all of whose variables are seen passes the reader's visibility test. -/
theorem allVisible_of_sees {scopes : Names} {lexemes : List Lexeme}
    (sees : ∀ chars, .word chars ∈ lexemes → isVariable chars = true → scopes.Sees chars) :
    allVisible scopes.spelled lexemes = true := by
  rw [allVisible, List.all_eq_true]
  intro chars member
  obtain ⟨word, ofNode⟩ := mem_of_mem_mentions member
  exact List.contains_iff_mem.2 (sees chars word ofNode).mem_spelled

/-- A line that leads with no type is not read as a declaration. -/
theorem declaration?_of_leads {single : Bool} {lexemes : List Lexeme}
    (undeclared : leads single lexemes = true) : declaration? lexemes = none := by
  match lexemes with
  | [] | .literal :: rest | .sign c :: rest => rfl
  | [.word chars] =>
    rw [declaration?]
    split <;> rfl
  | .word chars :: next :: rest =>
    rw [leads, Bool.and_eq_true, Bool.not_eq_true'] at undeclared
    rw [declaration?, List.takeWhile_cons_of_neg (by simp [undeclared.1])]
    split <;> rfl

/-- A line that leads with no type is not read as a loop header either. -/
theorem header?_of_leads {single : Bool} {lexemes : List Lexeme}
    (undeclared : leads single lexemes = true) : header? lexemes = none := by
  match lexemes with
  | [] | .literal :: rest | .sign c :: rest => rfl
  | [.word chars] =>
    rw [header?]
    exact nofun
  | .word chars :: next :: rest =>
    rw [leads, Bool.and_eq_true, bne_iff_ne] at undeclared
    rw [header?]
    rintro rest' same
    exact absurd (Lexeme.word.inj (List.cons.inj same).1) undeclared.2

section

variable {scopes : Names}

/-- The text of some lines. -/
def linesText (lines : List Line) : List Char := lines.flatMap fun line => line.text.toList

/-- The open scopes before and after some lines, whatever comes behind them. -/
def ReadsLines (lines : List Line) (before after : Names) : Prop :=
  ∀ rest, read before.spelled (linesText lines ++ rest) = read after.spelled rest

/-- No lines leave the scopes as they are. -/
theorem ReadsLines.nil : ReadsLines [] scopes scopes := fun _ => rfl

/-- Two runs of lines are read one after the other. -/
theorem ReadsLines.append {first second : List Line} {before middle after : Names}
    (readsFirst : ReadsLines first before middle) (readsSecond : ReadsLines second middle after) :
    ReadsLines (first ++ second) before after := by
  intro rest
  rw [linesText, List.flatMap_append, List.append_assoc]
  exact (readsFirst _).trans (readsSecond rest)

/-- A line is read by its code. -/
theorem ReadsLines.of_readLine {after : Names} {indent : Nat} {code : Code}
    (sameLine : '\n' ∉ code.chars)
    (result : ∀ chars, scan .outside chars = scan .outside code.chars →
      readLine scopes.spelled chars = some after.spelled) :
    ReadsLines [{ indent, code }] scopes after := by
  intro rest
  -- tabs in front add no lexemes, so the line is read as its code is
  have text : linesText [{ indent, code }] =
      (List.replicate indent '\t' ++ code.chars) ++ ['\n'] := by
    rw [linesText, List.flatMap_singleton, Line.text, String.toList_append, String.toList_append,
      String.toList_ofList]
    rfl
  have oneLine : '\n' ∉ List.replicate indent '\t' ++ code.chars := by
    rw [List.mem_append, not_or]
    exact ⟨fun tab => absurd (List.eq_of_mem_replicate tab) (by decide), sameLine⟩
  rw [text, List.append_assoc, List.singleton_append, read_append oneLine,
    result _ (scan_tabs indent code.chars), Option.bind_some]

/-- A plain line changes nothing. -/
theorem ReadsLines.plain {code : Code} (plain : code.IsPlain scopes) (indent : Nat) :
    ReadsLines [{ indent, code }] scopes scopes := by
  refine .of_readLine plain.sameLine fun chars scanned => ?_
  have noBrace : ∀ c, c = '\x7b' ∨ c = '\x7d' →
      (scan .outside code.chars).getLast? ≠ some (.sign c) := by
    intro c brace last
    have braced := plain.braced
    rw [last] at braced
    exact absurd (braced (decide_eq_true brace)) nofun
  rw [readLine, scanned, if_neg, if_neg, declaration?_of_leads plain.undeclared,
    allVisible_of_sees plain.sees]
  · rfl
  · exact noBrace _ (.inl rfl)
  · intro closing
    exact noBrace _ (.inr rfl) (by rw [closing]; rfl)

/-- A closing brace ends the innermost scope. -/
theorem ReadsLines.close (indent : Nat) (scope : List Name) :
    ReadsLines [{ indent, code := "\x7d" }] (scope :: scopes) scopes :=
  .of_readLine (by decide) fun chars scanned => by
    rw [readLine, scanned, chars_text, if_pos (by decide)]
    rfl

/-- A line that ends with a brace opens a scope, with the name that its head declares. -/
theorem ReadsLines.open {index : Option Name} {code : Code} (indent : Nat)
    (sameLine : '\n' ∉ code.chars)
    (brace : (scan .outside code.chars).getLast? = some (.sign '\x7b'))
    (declares : header? (scan .outside code.chars) = index.map fun name => name.text.toList)
    (sees : ∀ chars, .word chars ∈ scan .outside code.chars → isVariable chars = true →
      Names.Sees (index.toList :: scopes) chars) :
    ReadsLines [{ indent, code }] scopes (index.toList :: scopes) := by
  refine .of_readLine sameLine fun chars scanned => ?_
  have inner : (header? (scan .outside code.chars)).toList :: scopes.spelled =
      Names.spelled (index.toList :: scopes) := by
    rw [declares]
    cases index <;> rfl
  -- a line that ends with an opening brace is no closing one
  rw [readLine, scanned, if_neg, if_pos brace]
  · dsimp only
    rw [inner, allVisible_of_sees sees, if_pos rfl]
  · intro closing
    rw [closing] at brace
    exact absurd brace (by decide)

/-! ## Statements -/

/-- The open scopes before and after some statements, whatever comes behind them. -/
def Reads (statements : List Statement) (before after : Names) : Prop :=
  ∀ indent, ReadsLines (Statement.linesOfAll indent statements) before after

/-- The lines of a concatenation are the concatenated lines. -/
theorem linesOfAll_append (indent : Nat) (first second : List Statement) :
    Statement.linesOfAll indent (first ++ second) =
      Statement.linesOfAll indent first ++ Statement.linesOfAll indent second := by
  induction first with
  | nil => rfl
  | cons statement first ih =>
    rw [List.cons_append, Statement.linesOfAll, Statement.linesOfAll, ih, List.append_assoc]

/-- No statements leave the scopes as they are. -/
theorem Reads.nil : Reads [] scopes scopes := fun _ => .nil

/-- Two lists of statements are read one after the other. -/
theorem Reads.append {first second : List Statement} {before middle after : Names}
    (readsFirst : Reads first before middle) (readsSecond : Reads second middle after) :
    Reads (first ++ second) before after := by
  intro indent
  rw [linesOfAll_append]
  exact (readsFirst indent).append (readsSecond indent)

/-- A list of statements is read from its first statement on. -/
theorem Reads.cons {first : Statement} {rest : List Statement} {before middle after : Names}
    (readsFirst : Reads [first] before middle) (readsRest : Reads rest middle after) :
    Reads (first :: rest) before after :=
  readsFirst.append readsRest

/-- Statements that declare nothing, one after the other. -/
theorem Reads.all {statements : List Statement}
    (each : ∀ statement ∈ statements, Reads [statement] scopes scopes) :
    Reads statements scopes scopes := by
  induction statements with
  | nil => exact .nil
  | cons first rest ih =>
    exact .cons (each first List.mem_cons_self) (ih fun statement member =>
      each statement (List.mem_cons_of_mem _ member))

/-- Blocks that each leave the scopes alone do so together. -/
theorem Reads.flatten {blocks : List (List Statement)}
    (each : ∀ block ∈ blocks, Reads block scopes scopes) : Reads blocks.flatten scopes scopes := by
  induction blocks with
  | nil => exact .nil
  | cons first rest ih =>
    exact (each first List.mem_cons_self).append (ih fun block member =>
      each block (List.mem_cons_of_mem _ member))

/-- The lines of one statement in a list are its own. -/
theorem linesOfAll_singleton (indent : Nat) (statement : Statement) :
    Statement.linesOfAll indent [statement] = statement.lines indent := by
  rw [Statement.linesOfAll, Statement.linesOfAll, List.append_nil]

/-- A plain line is read, and the scopes stay. -/
theorem Reads.line {code : Code} (plain : code.IsPlain scopes) :
    Reads [.line code] scopes scopes := by
  intro indent
  rw [linesOfAll_singleton, Statement.lines]
  exact .plain plain indent

/-- A one-line control statement of plain parts is read, and the scopes stay. -/
theorem Reads.control {head action : Code} (headPlain : head.IsPlain scopes)
    (actionPlain : action.IsPlain scopes) : Reads [.control head action] scopes scopes := by
  intro indent
  rw [linesOfAll_singleton, Statement.lines]
  exact (ReadsLines.plain headPlain indent).append (.plain actionPlain _)

/-! ## Declarations -/

/-- Lexemes that stand in front of a declared name. -/
def isTypeLexemes : List Lexeme → Bool
  | .word first :: rest => !keywords.contains (String.ofList first) && rest.all isSpecifier
  | _ => false

/-- A type in front of a declared name. -/
def isType (chars : List Char) : Bool :=
  Part.isNeutral chars && !endsWord chars && isTypeLexemes (scan .outside chars)

/-- What may stand behind a declared name. -/
def isInitial : List Char → Bool
  | ' ' :: '=' :: _ | ';' :: _ | '[' :: _ => true
  | _ => false

/-- What may stand behind a declared name does not run into it. -/
theorem startsWord_of_isInitial {chars : List Char} (initial : isInitial chars = true) :
    startsWord chars = false := by
  unfold isInitial at initial
  split at initial
  · rfl
  · rfl
  · rfl
  · cases initial

/-- What may stand behind a declared name starts with a sign that is no specifier. -/
theorem scan_of_isInitial {chars : List Char} (initial : isInitial chars = true) :
    ∃ c rest, scan .outside chars = .sign c :: rest ∧ isSpecifier (.sign c) = false := by
  unfold isInitial at initial
  split at initial
  · exact ⟨'=', _, rfl, by decide⟩
  · exact ⟨';', _, rfl, by decide⟩
  · exact ⟨'[', _, rfl, by decide⟩
  · cases initial

/-- The name that is declared stands between its type and a sign. -/
theorem declaration?_append {type : List Lexeme} (isType : isTypeLexemes type = true)
    (name : List Char) {next : Lexeme} (other : isSpecifier next = false) (rest : List Lexeme) :
    declaration? (type ++ .word name :: next :: rest) = some (name, type ++ next :: rest) := by
  match type, isType with
  | .word first :: type, isType =>
    rw [isTypeLexemes, Bool.and_eq_true, Bool.not_eq_true', List.all_eq_true] at isType
    have taken : (type ++ .word name :: next :: rest).takeWhile isSpecifier =
        type ++ [.word name] := by
      rw [List.takeWhile_append_of_pos isType.2, List.takeWhile_cons_of_pos rfl,
        List.takeWhile_cons_of_neg (by simp [other])]
    have dropped : (type ++ .word name :: next :: rest).dropWhile isSpecifier = next :: rest := by
      rw [List.dropWhile_append_of_pos isType.2, List.dropWhile_cons_of_pos rfl,
        List.dropWhile_cons_of_neg (by simp [other])]
    rw [List.cons_append, declaration?, isType.1, taken, dropped]
    simp

/-- A name that is declared is one lexeme between those of its type and of what stands behind it. -/
theorem scan_declared {name : String} {type tail : List Char} (nonempty : name.toList ≠ [])
    (word : IsIdentifier name) (typed : isType type = true) (initial : isInitial tail = true) :
    scan .outside (type ++ (name.toList ++ tail)) =
      scan .outside type ++ .word name.toList :: scan .outside tail := by
  rw [isType, Bool.and_eq_true, Bool.and_eq_true, Bool.not_eq_true', Part.isNeutral_iff] at typed
  obtain ⟨⟨⟨outside, -⟩, ends⟩, -⟩ := typed
  rw [scan_append (fun _ h => absurd h (by simp [ends])), outside,
    scan_append (fun _ _ => startsWord_of_isInitial initial), scan_word nonempty word,
    after_of_forall word]
  rfl

/-- A declaration adds a name to the innermost scope. -/
theorem ReadsLines.declare {here : List Name} {outer : Names} {name : Name} {node : Nat}
    {code type tail : Code} (ofNode : name.node? = some node) (word : IsIdentifier name.text)
    (typed : isType type.chars = true) (initial : isInitial tail.chars = true)
    (plain : tail.IsPlain (here :: outer)) (fresh : name ∉ here)
    (text : code.chars = type.chars ++ (name.text.toList ++ tail.chars)) (indent : Nat) :
    ReadsLines [{ indent, code }] (here :: outer) ((name :: here) :: outer) := by
  obtain ⟨c, rest, scannedTail, other⟩ := scan_of_isInitial initial
  have scanned : scan .outside code.chars =
      scan .outside type.chars ++ .word name.text.toList :: .sign c :: rest := by
    rw [text, scan_declared name.toList_text_ne_nil word typed initial, scannedTail]
  rw [isType, Bool.and_eq_true, Bool.and_eq_true, Bool.not_eq_true', Part.isNeutral_iff] at typed
  obtain ⟨⟨⟨-, sameLine, noVariable⟩, -⟩, isType⟩ := typed
  have last : (scan .outside code.chars).getLast? = (scan .outside tail.chars).getLast? := by
    rw [scanned, scannedTail, List.getLast?_append_of_ne_nil _ (List.cons_ne_nil _ _),
      List.getLast?_cons_cons]
  have noBrace : ∀ c, c = '\x7b' ∨ c = '\x7d' →
      (scan .outside code.chars).getLast? ≠ some (.sign c) := by
    intro c brace lastBrace
    have braced := plain.braced
    rw [← last, lastBrace] at braced
    exact absurd (braced (decide_eq_true brace)) nofun
  -- the name itself is not among what has to be visible
  have visible : allVisible (Names.spelled (here :: outer))
      (scan .outside type.chars ++ .sign c :: rest) = true := by
    refine allVisible_of_sees fun chars member ofNode => ?_
    rcases List.mem_append.1 member with member | member
    · exact absurd ofNode (by rw [noVariable chars member]; decide)
    · exact plain.sees chars (scannedTail ▸ member) ofNode
  have new : name.text.toList ∉ here.map fun name => name.text.toList := by
    rw [List.mem_map]
    rintro ⟨name', member, same⟩
    exact fresh (Name.eq_of_toList_text_eq ofNode same.symm ▸ member)
  refine .of_readLine ?_ fun chars rescanned => ?_
  · rw [text, List.mem_append, List.mem_append, not_or, not_or]
    exact ⟨sameLine, fun newline => absurd (word '\n' newline) (by decide), plain.sameLine⟩
  · rw [readLine, rescanned, if_neg, if_neg (noBrace _ (.inl rfl)), scanned,
      declaration?_append isType _ other]
    · exact if_pos ⟨visible, new⟩
    · intro closing
      exact noBrace _ (.inr rfl) (by rw [closing]; rfl)

/-- What may stand behind a declared name may do so whatever follows. -/
theorem isInitial_append {chars : List Char} (initial : isInitial chars = true)
    (rest : List Char) : isInitial (chars ++ rest) = true := by
  unfold isInitial at initial
  split at initial
  · rfl
  · rfl
  · rfl
  · cases initial

/-- The parts of what stands behind a declared name. -/
def isTail (parts : List Part) : Bool :=
  (Part.shape? parts).any (!·.braced) && match parts.getLast? with
    | some (.fixed text) => isInitial text.toList
    | _ => false

/-- How code starts is known from its first part. -/
theorem isInitial_of_fits {parts : List Part} {code : Code} (fits : Fits scopes parts code)
    {text : String} (first : parts.getLast? = some (.fixed text))
    (initial : isInitial text.toList = true) : isInitial code.chars = true := by
  induction fits with
  | start text' =>
    obtain rfl := Part.fixed.inj (Option.some.inj first)
    rwa [chars_text]
  | hole => cases first
  | text fits text' ih | optional fits plain ih =>
    rw [chars_append]
    refine isInitial_append (ih ?_) _
    obtain ⟨part, earlier, rfl⟩ := List.exists_cons_of_ne_nil fits.parts_ne_nil
    rwa [List.getLast?_cons_cons] at first

/-- A declaration of a fresh name, with a type before it and a plain rest after it, is read and adds
the name to the innermost scope. -/
theorem Reads.declare {here : List Name} {outer : Names} {name : Name} {node : Nat}
    {type tail : Code} {parts : List Part} (ofNode : name.node? = some node)
    (word : IsIdentifier name.text) (fits : Fits (here :: outer) parts tail) (fresh : name ∉ here)
    (typed : isType type.chars = true := by rfl)
    (passed : isTail parts = true := by rfl) :
    Reads [.declare type name tail] (here :: outer) ((name :: here) :: outer) := by
  rw [isTail, Bool.and_eq_true] at passed
  obtain ⟨noBrace, initial⟩ := passed
  -- what stands behind the name starts with a fixed text, or the check would have failed
  split at initial
  · rename_i text first
    intro indent
    rw [linesOfAll_singleton, Statement.lines]
    refine .declare ofNode word typed (isInitial_of_fits fits first initial) (fits.isPlain noBrace)
      fresh ?_ indent
    simp
  · cases initial

/-- Lines that each declare a name of their own, one after the other. -/
theorem ReadsLines.declareAll {ι : Type} {xs : List ι} {name : ι → Name} {lines : ι → List Line}
    {outer : Names}
    (each : ∀ x ∈ xs, ∀ here, name x ∉ here →
      ReadsLines (lines x) (here :: outer) ((name x :: here) :: outer))
    (distinct : (xs.map name).Nodup) {here : List Name} (fresh : ∀ x ∈ xs, name x ∉ here) :
    ReadsLines (xs.flatMap lines) (here :: outer)
      (((xs.map name).reverse ++ here) :: outer) := by
  induction xs generalizing here with
  | nil => exact .nil
  | cons x xs ih =>
    rw [List.map_cons, List.nodup_cons] at distinct
    rw [List.forall_mem_cons] at each fresh
    rw [List.flatMap_cons, List.map_cons, List.reverse_cons, List.append_assoc,
      List.singleton_append]
    -- the first name is in scope now, and none of the others is that one
    refine (each.1 here fresh.1).append (ih each.2 distinct.2 fun y member => ?_)
    rw [List.mem_cons, not_or]
    exact ⟨fun same => distinct.1 (same ▸ List.mem_map_of_mem member), fresh.2 y member⟩

/-- The lines of mapped statements are the mapped lines. -/
theorem linesOfAll_flatMap {ι : Type} (indent : Nat) (xs : List ι)
    (statements : ι → List Statement) :
    Statement.linesOfAll indent (xs.flatMap statements) =
      xs.flatMap fun x => Statement.linesOfAll indent (statements x) := by
  induction xs with
  | nil => rfl
  | cons x xs ih => rw [List.flatMap_cons, linesOfAll_append, ih, List.flatMap_cons]

/-- Declarations of distinct fresh names, one after the other, add all of them to the innermost
scope. -/
theorem Reads.declareAll {ι : Type} {xs : List ι} {name : ι → Name}
    {statements : ι → List Statement} {outer : Names}
    (each : ∀ x ∈ xs, ∀ here, name x ∉ here →
      Reads (statements x) (here :: outer) ((name x :: here) :: outer))
    (distinct : (xs.map name).Nodup) {here : List Name} (fresh : ∀ x ∈ xs, name x ∉ here) :
    Reads (xs.flatMap statements) (here :: outer)
      (((xs.map name).reverse ++ here) :: outer) := by
  intro indent
  rw [linesOfAll_flatMap]
  exact .declareAll (fun x member here fresh => each x member here fresh indent) distinct fresh

/-! ## Blocks -/

/-- The head of a block is plain; a loop may use its index, and its directive may not. -/
inductive Opens (scopes : Names) : Head → Option Name → Prop where
  | bare : Opens scopes .bare none
  | control {code : Code} : code.IsPlain scopes → Opens scopes (.control code) none
  | loop {directive : Option Code} {index : Name} {start test step : Code} :
      IsIdentifier index.text → (∀ code ∈ directive, code.IsPlain scopes) →
      start.IsPlain ([index] :: scopes) → test.IsPlain ([index] :: scopes) →
      step.IsPlain ([index] :: scopes) →
      Opens scopes (.loop directive index start test step) (some index)

/-- Code that ends outside literals lexes apart from a bracket or blank after it. -/
theorem scan_brace {code : Code} (outside : after .outside code.chars = .outside) (text : String)
    (apart : startsWord text.toList = false) :
    scan .outside (code ++ text : Code).chars =
      scan .outside code.chars ++ scan .outside text.toList := by
  rw [chars_append, chars_text, scan_append fun _ _ => apart, outside]

/-- A control head's line over plain code opens an empty scope. -/
theorem ReadsLines.control {code : Code} (plain : code.IsPlain scopes) (indent : Nat) :
    ReadsLines [{ indent, code := code ++ " \x7b" }] scopes ([] :: scopes) := by
  have scanned := scan_brace plain.outside " \x7b" rfl
  have forms := (Fits.hole plain |>.text " \x7b").forms rfl
  refine @ReadsLines.open scopes none _ indent forms.sameLine ?_ ?_ ?_
  · rw [scanned, List.getLast?_append]
    rfl
  · rw [scanned]
    exact header?_of_leads (leads_append plain.undeclared fun _ => rfl)
  · exact fun chars member ofNode => (forms.sees chars member ofNode).mono (scopes.below_enter [])

/-- A loop header's line opens a scope that holds the loop's index. -/
theorem ReadsLines.loop {index : Name} {start test step : Code} (word : IsIdentifier index.text)
    (startPlain : start.IsPlain ([index] :: scopes)) (testPlain : test.IsPlain ([index] :: scopes))
    (stepPlain : step.IsPlain ([index] :: scopes)) (indent : Nat) :
    ReadsLines
      [{ indent
         code := "for (size_t " ++ index ++ " = " ++ start ++ "; " ++ test ++ "; " ++ step ++
          ") \x7b" }] scopes ([index] :: scopes) := by
  -- what stands behind the index, without and with the brace
  let front : Code := " = " ++ start ++ "; " ++ test ++ "; " ++ step
  let tail : Code := front ++ ") \x7b"
  have fits : Fits ([index] :: scopes) _ front :=
    Fits.start _ |>.code startPlain |>.text _ |>.code testPlain |>.text _
      |>.code stepPlain
  have frontPlain : front.IsPlain ([index] :: scopes) := fits.isPlain
  have tailForms := (fits.text ") \x7b").forms rfl
  have initial : isInitial tail.chars = true := by simp [tail, front, isInitial]
  obtain ⟨c, rest, scannedTail, other⟩ := scan_of_isInitial initial
  have text : ("for (size_t " ++ index ++ " = " ++ start ++ "; " ++ test ++ "; " ++ step ++
      ") \x7b" : Code).chars = "for (size_t ".toList ++ (index.text.toList ++ tail.chars) := by
    simp [tail, front]
  have scanned : scan .outside ("for (size_t ".toList ++ (index.text.toList ++ tail.chars)) =
      .word "for".toList :: .sign '(' ::
        ([.word "size_t".toList] ++ .word index.text.toList :: .sign c :: rest) := by
    rw [scan_append (fun _ ends => absurd ends (by decide)),
      show after .outside "for (size_t ".toList = .outside from rfl,
      scan_append (fun _ _ => startsWord_of_isInitial initial),
      scan_word index.toList_text_ne_nil word, after_of_forall word, scannedTail]
    rfl
  have last : (scan .outside tail.chars).getLast? = some (.sign '\x7b') := by
    rw [scan_brace frontPlain.outside ") \x7b" rfl, List.getLast?_append]
    rfl
  refine @ReadsLines.open scopes (some index) _ indent ?_ ?_ ?_ ?_ <;> rw [text]
  · rw [List.mem_append, List.mem_append, not_or, not_or]
    exact ⟨by decide, fun newline => absurd (word '\n' newline) (by decide), tailForms.sameLine⟩
  · rw [scannedTail] at last
    rw [scanned]
    simpa [List.getLast?_cons] using last
  · rw [scanned]
    have type : isTypeLexemes [.word "size_t".toList] = true := by decide +kernel
    exact congrArg (Option.map (·.1)) (declaration?_append type _ other rest)
  · intro chars member ofNode
    rw [scanned] at member
    simp only [List.mem_cons, List.singleton_append, Lexeme.word.injEq] at member
    rcases member with rfl | member | rfl | rfl | member
    · cases ofNode
    · cases member
    · cases ofNode
    · exact ⟨[index], List.mem_cons_self, index, List.mem_cons_self, rfl⟩
    · exact tailForms.sees chars (by rw [scannedTail]; exact List.mem_cons.2 member) ofNode

/-- A head that opens a scope is read line by line to that scope. -/
theorem Opens.reads {head : Head} {index : Option Name} (opens : Opens scopes head index)
    (indent : Nat) : ReadsLines (head.lines indent) scopes (index.toList :: scopes) := by
  cases opens with
  | bare =>
    have scanned : scan .outside ("\x7b" : Code).chars = [.sign '\x7b'] := rfl
    refine @ReadsLines.open scopes none _ indent (by decide) rfl rfl fun chars member => ?_
    rw [scanned, List.mem_singleton] at member
    cases member
  | control plain => exact .control plain indent
  | @loop directive index start test step word directivePlain startPlain testPlain stepPlain =>
    have loop := ReadsLines.loop word startPlain testPlain stepPlain indent
    cases directive with
    | none => exact loop
    | some code => exact (ReadsLines.plain (directivePlain code rfl) indent).append loop

/-- A loop up to a length that is visible in front of it. -/
theorem Opens.upTo {index : Name} {length : Code} (word : IsIdentifier index.text)
    (lengthPlain : length.IsPlain scopes) : Opens scopes (.upTo index length) (some index) := by
  have indexPlain := isPlain_variable (Names.has_declared word [] scopes)
  have lengthInside := lengthPlain.enter [index]
  refine .loop word nofun (Fits.start _).isPlain ?_ ?_
  · exact (Fits.hole indexPlain |>.text _ |>.code lengthInside).isPlain
  · exact (Fits.hole indexPlain |>.text _).isPlain

/-- A loop over the first rows of batches. -/
theorem Opens.batches {index : Name} {total : Code} (word : IsIdentifier index.text)
    (totalPlain : total.IsPlain scopes) : Opens scopes (.batches index total) (some index) := by
  have indexPlain := isPlain_variable (Names.has_declared word [] scopes)
  have totalInside := totalPlain.enter [index]
  refine .loop word nofun (Fits.start _).isPlain ?_ ?_
  · exact (Fits.hole indexPlain |>.text _ |>.code totalInside).isPlain
  · exact (Fits.hole indexPlain |>.text _).isPlain

/-- A plain directive before a head leaves the scope it opens as it is. -/
theorem Opens.withDirective {head : Head} {index : Option Name} (opens : Opens scopes head index)
    {directive : Option Code} (directivePlain : ∀ code ∈ directive, code.IsPlain scopes) :
    Opens scopes (head.withDirective directive) index := by
  cases opens with
  | bare => exact .bare
  | control plain => exact .control plain
  | loop word _ startPlain testPlain stepPlain =>
    exact .loop word directivePlain startPlain testPlain stepPlain

/-- A block whose head opens a scope and whose body is read in it closes that scope again. -/
theorem Reads.block {head : Head} {index : Option Name} {body : List Statement}
    {names : List Name} (opens : Opens scopes head index)
    (reads : Reads body (index.toList :: scopes) (names :: scopes)) :
    Reads [.block head body] scopes scopes := by
  intro indent
  rw [linesOfAll_singleton, Statement.lines]
  exact ((opens.reads indent).append (reads (indent + 1))).append (.close indent names)

end

/-! ## Open places -/

/-- Statements leave all scopes as they are, but may declare names in the innermost one. -/
def Stays (scopes : Names) (statements : List Statement) : Prop :=
  ∃ here, Reads statements scopes (here :: scopes.tail)

/-- Code around an open place where other scopes are open; these are closed again behind it, and
names are only declared on the way in. -/
def Leads (outer inner : Names) (context : Context) : Prop :=
  ∀ statements, Stays inner statements → Stays outer (context.fill statements)

/-- Code around an open place that declares nothing in front of its first block. -/
def Closes (outer inner : Names) (context : Context) : Prop :=
  ∀ statements, Stays inner statements → Reads (context.fill statements) outer outer

section

variable {outer middle inner scopes : Names} {first second : Context}

/-- Statements read without a new name are read so in every continuation. -/
theorem Reads.stays {here : List Name} {outer : Names} {statements : List Statement}
    (reads : Reads statements (here :: outer) (here :: outer)) :
    Stays (here :: outer) statements := ⟨here, reads⟩

/-- Contexts that lead from scope to scope are composed. -/
theorem Leads.append (leadsFirst : Leads outer middle first)
    (leadsSecond : Leads middle inner second) :
    Leads outer inner (first ++ second) := by
  intro statements stays
  rw [Context.fill_append]
  exact leadsFirst _ (leadsSecond _ stays)

/-- A context leads on from where its first step leads. -/
theorem Leads.cons {step : Step} {rest : Context} (leadsStep : Leads outer middle [step])
    (leadsRest : Leads middle inner rest) : Leads outer inner (step :: rest) :=
  leadsStep.append leadsRest

/-- An empty context leads nowhere. -/
theorem Leads.nil : Leads outer outer [] := fun _ => id

/-- Code around an open place goes on from that of another one. -/
theorem Closes.append (closes : Closes outer middle first) (leads : Leads middle inner second) :
    Closes outer inner (first ++ second) := by
  intro statements stays
  rw [Context.fill_append]
  exact closes _ (leads _ stays)

/-- Statements come first. -/
theorem Closes.before {statements : List Statement} (reads : Reads statements outer outer)
    (closes : Closes outer inner second) :
    Closes outer inner (Context.runAll statements ++ second) := by
  intro more stays
  rw [Context.fill_append, Context.fill_runAll]
  exact reads.append (closes more stays)

/-- Entering a block leads into its scope, and the closing bracket leads back. -/
theorem Closes.enter {head : Head} {index : Option Name} (opens : Opens outer head index) :
    Closes outer (index.toList :: outer) [.enter head] := by
  rintro statements ⟨names, reads⟩
  exact .block opens reads

/-- Code that leaves all scopes as they were may follow declarations. -/
theorem Closes.leads {here : List Name} {outer : Names}
    (closes : Closes (here :: outer) inner first) :
    Leads (here :: outer) inner first :=
  fun statements stays => ⟨here, closes statements stays⟩

/-- A statement as a step leads where reading it leads. -/
theorem Leads.run {here names : List Name} {outer : Names} {statement : Statement}
    (reads : Reads [statement] (here :: outer) (names :: outer)) :
    Leads (here :: outer) (names :: outer) [.run statement] := by
  rintro statements ⟨later, readsLater⟩
  exact ⟨later, reads.cons readsLater⟩

/-- Statements in front of the open place. -/
theorem Leads.runAll {here names : List Name} {outer : Names} {statements : List Statement}
    (reads : Reads statements (here :: outer) (names :: outer)) :
    Leads (here :: outer) (names :: outer) (Context.runAll statements) := by
  rintro more ⟨later, readsLater⟩
  rw [Context.fill_runAll]
  exact ⟨later, reads.append readsLater⟩

/-- Entering a block leads into the scope its head opens. -/
theorem Leads.enter {here : List Name} {outer : Names} {head : Head} {index : Option Name}
    (opens : Opens (here :: outer) head index) :
    Leads (here :: outer) (index.toList :: here :: outer) [.enter head] := by
  rintro statements ⟨names, reads⟩
  exact ⟨here, .block opens reads⟩

end

end Scope

end PlanCompiler
