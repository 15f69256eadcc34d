import PlanCompiler.Plan.Parser
import PlanCompiler.Proofs.Plan.Text.Lines
import PlanCompiler.Proofs.Plan.Text.Printing
import PlanCompiler.Proofs.Plan.Validity

/-!
# What is read from text

Whatever a text plan says, it is divided at its line feeds first, so that no text, no pattern and
no directory of a plan that was read has one, and its directory is not empty and has no blank at
either end. Its date literals are dates of the calendar.

## Main definitions

* `Expr.IsLegible`: what the texts, patterns and dates that are read have in common;
* `LineReader.Ensures`: a condition on everything that a reader returns;
* `Draft.IsPlain`: the condition on what the lines so far have said.

## Main results

* `Node.isLegible_of_ofLine`: the expressions of a node that was read;
* `Draft.IsPlain.addLine`: a line keeps the condition;
* `Plan.isTrimmed_of_parse`, `Plan.isLegible_of_parse`: the contents of a plan that was read.
-/

namespace PlanCompiler

open Token

/-- A text literal or a pattern has no line feed, and the calendar has the date of a date
literal. -/
structure Expr.IsLegible (e : Expr) : Prop where
  line : e.IsOnOneLine
  date : e.IsDated

namespace LineReader

variable {α β : Type}

/-- From tokens without line feeds in quoted texts, a reader returns only values that satisfy a
condition, and leaves such tokens. -/
def Ensures (reader : LineReader α) (Q : α → Prop) : Prop :=
  ∀ tokens a rest, OnOneLine tokens → reader tokens = .ok (a, rest) → OnOneLine rest ∧ Q a

namespace Ensures

variable {reader : LineReader α} {step : α → LineReader β} {Q : α → Prop} {R : β → Prop}

/-- A result without reading ensures what holds of it. -/
theorem pure {a : α} (h : Q a) : Ensures (Pure.pure a) Q := by
  rintro tokens _ _ line ⟨⟩
  exact ⟨line, h⟩

/-- A failure ensures anything. -/
theorem fail (fault : LineFault) (Q : α → Prop) : Ensures (LineReader.fail fault) Q := by
  rintro tokens _ _ - ⟨⟩

/-- One reader after the other. -/
theorem bind (first : Ensures reader Q) (second : ∀ a, Q a → Ensures (step a) R) :
    Ensures (reader >>= step) R := by
  intro tokens b rest line read
  obtain ⟨a, later, taken, result⟩ := bind_apply_eq_ok_iff.1 read
  obtain ⟨line, satisfied⟩ := first tokens a later line taken
  exact second a satisfied later b rest line result

/-- A computation that takes no tokens. -/
theorem lift {x : Except LineFault α} (h : ∀ a, x = .ok a → Q a) :
    Ensures (x : LineReader α) Q := by
  intro tokens a rest line read
  obtain ⟨b, found, result⟩ := bind_eq_ok_iff.1 read
  obtain ⟨rfl, rfl⟩ := Prod.mk.inj (Except.ok.inj result)
  exact ⟨line, h b found⟩

/-- The next token of a line is no quoted text with a line feed. -/
theorem next (what : String) :
    Ensures (LineReader.next what)
      fun token => ∀ text, token = .quoted text → '\n' ∉ text.toList := by
  intro tokens token rest line read
  cases tokens with
  | nil => cases read
  | cons first others =>
    obtain ⟨rfl, rfl⟩ := Prod.mk.inj (Except.ok.inj read)
    refine ⟨fun text member => line text (List.mem_cons_of_mem _ member), ?_⟩
    rintro text rfl
    exact line text List.mem_cons_self

/-- Reading an atom ensures nothing. -/
theorem atom (what : String) : Ensures (LineReader.atom what) fun _ => True := by
  refine (next what).bind fun token _ => ?_
  cases token with
  | atom text => exact pure trivial
  | _ => exact fail _ _

/-- Reading an expected token ensures nothing. -/
theorem expect (token : Token) : Ensures (LineReader.expect token) fun _ => True := by
  refine (next token.describe).bind fun found _ => ?_
  split
  · exact fail _ _
  · exact pure trivial

/-- Reading a number ensures nothing. -/
theorem number (what : String) : Ensures (LineReader.number what) fun _ => True := by
  refine (atom what).bind fun text _ => ?_
  split
  · exact pure trivial
  · exact fail _ _

/-! ## Repetitions -/

/-- What reading one element ensures holds of all that are read up to an end. -/
theorem elementsUntil (ends : List Token → Bool) (h : Ensures reader Q) (rounds : Nat) :
    Ensures (LineReader.elementsUntil ends reader rounds) fun values => ∀ a ∈ values, Q a := by
  have none : ∀ a ∈ ([] : List α), Q a := fun a member => absurd member List.not_mem_nil
  induction rounds with
  | zero => exact pure none
  | succ rounds ih =>
    intro tokens values rest line read
    -- the reader looks whether it is at the end before each element
    by_cases stop : ends tokens = true
    · have stops : LineReader.elementsUntil ends reader (rounds + 1) tokens = .ok ([], tokens) := by
        show (if ends tokens = true then _ else _ : LineReader (List α)) tokens = _
        rw [if_pos stop]
        rfl
      obtain ⟨rfl, rfl⟩ := Prod.mk.inj (Except.ok.inj (stops.symm.trans read))
      exact ⟨line, none⟩
    · have goesOn : Ensures (reader >>= fun a =>
          LineReader.elementsUntil ends reader rounds >>= fun as =>
          Pure.pure (a :: as)) fun values => ∀ a ∈ values, Q a :=
        h.bind fun a first => ih.bind fun as others => pure (List.forall_mem_cons.2 ⟨first, others⟩)
      refine goesOn tokens values rest line ?_
      have unfolded : (if ends tokens = true then _ else _ : LineReader (List α)) tokens = _ := read
      rwa [if_neg stop] at unfolded

/-- What reading one element ensures holds of all that are read. -/
theorem many (ends : List Token → Bool) (h : Ensures reader Q) :
    Ensures (LineReader.many ends reader) fun values => ∀ a ∈ values, Q a := by
  intro tokens values rest line read
  exact elementsUntil ends h tokens.length tokens values rest line read

/-! ## Expressions -/

/-- An atom is no text and no pattern, and if it is a date it is one of the calendar. -/
theorem literal (text : String) :
    Ensures (literalOfText text : Except LineFault Expr)
      fun e => ∀ part ∈ e.parts, part.IsLegible := by
  refine lift fun e found => ?_
  unfold literalOfText at found
  split at found
  · obtain ⟨column, -, rfl⟩ := map_eq_ok_iff.1 found
    exact List.forall_mem_singleton.2 ⟨trivial, trivial⟩
  · split at found
    · -- a date, which has been converted to a day number
      split at found <;> cases found
      rename_i days read
      exact List.forall_mem_singleton.2 ⟨trivial, Calendar.exists_ofDays_of_parseDate? read⟩
    · split at found
      · cases found
        exact List.forall_mem_singleton.2 ⟨trivial, trivial⟩
      · split at found <;> cases found
        exact List.forall_mem_singleton.2 ⟨trivial, trivial⟩

variable {operand : LineReader Expr}

/-- A connective of legible operands is legible. -/
theorem operandsOf (h : Ensures operand fun e => ∀ part ∈ e.parts, part.IsLegible)
    (connective : Connective) :
    Ensures (LineReader.operandsOf connective operand)
      fun e => ∀ part ∈ e.parts, part.IsLegible := by
  refine (many operandsEnd h).bind fun operands each => ?_
  split
  · exact fail _ _
  · exact pure (Expr.forall_parts_junction.2 ⟨⟨trivial, trivial⟩, each⟩)

/-- The operands of an operation are read by the reader that is given. -/
theorem operation (h : Ensures operand fun e => ∀ part ∈ e.parts, part.IsLegible)
    (word : String) :
    Ensures (LineReader.operation operand word) fun e => ∀ part ∈ e.parts, part.IsLegible := by
  unfold LineReader.operation
  split_ifs
  · -- and
    exact operandsOf h .and
  · -- or
    exact operandsOf h .or
  · -- not
    exact h.bind fun e inside => pure (Expr.forall_parts_not.2 ⟨⟨trivial, trivial⟩, inside⟩)
  · -- like, whose pattern is a quoted text
    refine h.bind fun value inside => (next "like pattern").bind fun token quoted => ?_
    cases token with
    | quoted pattern =>
      exact pure (Expr.forall_parts_like.2 ⟨⟨quoted pattern rfl, trivial⟩, inside⟩)
    | _ => exact fail _ _
  · -- case
    exact h.bind fun _ first => h.bind fun _ second => h.bind fun _ third =>
      pure (Expr.forall_parts_case.2 ⟨⟨trivial, trivial⟩, first, second, third⟩)
  · -- an operator, if the word names one
    split
    · exact fail _ _
    · exact h.bind fun _ left => h.bind fun _ right =>
        pure (Expr.forall_parts_binary.2 ⟨⟨trivial, trivial⟩, left, right⟩)

/-- Every expression that is read is legible in all its parts. -/
theorem expr (levels : Nat) :
    Ensures (LineReader.expr levels) fun e => ∀ part ∈ e.parts, part.IsLegible := by
  induction levels with
  | zero => exact fail _ _
  | succ levels ih =>
    refine (next "expression").bind fun token quoted => ?_
    cases token with
    | atom text => exact literal text
    | quoted text => exact pure (List.forall_mem_singleton.2 ⟨quoted text rfl, trivial⟩)
    | openParen =>
      exact (atom "operator").bind fun word _ => (operation ih word).bind fun e inside =>
        (expect .closeParen).bind fun _ _ => pure inside
    | _ => exact fail _ _

end Ensures

/-- Only filters and projections have expressions. -/
theorem Ensures.operands (operator : String) : ∀ tokens node rest, OnOneLine tokens →
    LineReader.operands operator tokens = .ok (node, rest) →
      ∀ part ∈ node.parts, part.IsLegible := by
  intro tokens node rest line read
  unfold LineReader.operands at read
  split_ifs at read
  · -- a scan has no expressions, whatever its tokens are
    obtain ⟨table, _, -, read⟩ := bind_apply_eq_ok_iff.1 read
    obtain ⟨columns, _, -, result⟩ := bind_apply_eq_ok_iff.1 read
    cases result
    exact nofun
  · -- filter
    have filter : Ensures (LineReader.inputNode >>= fun input =>
        LineReader.expr Expr.maxDepth >>= fun predicate => Pure.pure (Node.filter input predicate))
        fun node => ∀ part ∈ node.parts, part.IsLegible :=
      (number "input node").bind fun _ _ => (expr Expr.maxDepth).bind fun _ inside => pure inside
    exact (filter tokens node rest line read).2
  · -- project
    have project : Ensures (LineReader.inputNode >>= fun input =>
        LineReader.manyToEnd (LineReader.expr Expr.maxDepth) >>= fun expressions =>
          Pure.pure (Node.project input expressions))
        fun node => ∀ part ∈ node.parts, part.IsLegible := by
      refine (number "input node").bind fun _ _ => (many List.isEmpty (expr Expr.maxDepth)).bind
        fun expressions each => pure fun part inside => ?_
      obtain ⟨e, member, inside⟩ := List.mem_flatMap.1 inside
      exact each e member part inside
    exact (project tokens node rest line read).2
  · -- join
    obtain ⟨left, _, -, read⟩ := bind_apply_eq_ok_iff.1 read
    obtain ⟨right, _, -, read⟩ := bind_apply_eq_ok_iff.1 read
    obtain ⟨leftKey, _, -, read⟩ := bind_apply_eq_ok_iff.1 read
    obtain ⟨rightKey, _, -, result⟩ := bind_apply_eq_ok_iff.1 read
    cases result
    exact nofun
  · -- aggregate
    obtain ⟨input, _, -, read⟩ := bind_apply_eq_ok_iff.1 read
    obtain ⟨_, _, -, read⟩ := bind_apply_eq_ok_iff.1 read
    obtain ⟨groupBy, _, -, read⟩ := bind_apply_eq_ok_iff.1 read
    obtain ⟨aggregates, _, -, result⟩ := bind_apply_eq_ok_iff.1 read
    cases result
    exact nofun
  · -- no operator has another name
    cases read

end LineReader

/-- The texts, patterns and dates of a node are those of its line. -/
theorem Node.isLegible_of_ofLine {line : List Char} {node : Node} (oneLine : '\n' ∉ line)
    (read : Node.ofLine line = .ok node) : ∀ part ∈ node.parts, part.IsLegible := by
  obtain ⟨tokens, scanned, found⟩ := bind_eq_ok_iff.1 read
  obtain ⟨⟨node', rest⟩, whole, result⟩ := bind_eq_ok_iff.1 found
  obtain rfl : node' = node := Except.ok.inj result
  have line := gives_onOneLine_scanGap oneLine _ tokens (mapError_eq_ok_iff.1 scanned)
  obtain ⟨operator, later, taken, whole⟩ := LineReader.bind_apply_eq_ok_iff.1 whole
  have line := (LineReader.Ensures.atom "operator" tokens operator later line taken).1
  obtain ⟨other, last, read, ends⟩ := LineReader.bind_apply_eq_ok_iff.1 whole
  -- a node is returned only if no token is left behind it
  have same : other = node' := by
    cases last with
    | nil =>
      cases ends
      rfl
    | cons token others => cases ends
  rw [← same]
  exact LineReader.Ensures.operands operator later other last line read

/-! ## Lines -/

/-- What the lines so far have said came from single lines. -/
structure Draft.IsPlain (draft : Draft) : Prop where
  /-- The directory is not empty and has no blank at either end. -/
  trimmed : ∀ path ∈ draft.database, Text.IsTrimmed path.toList
  /-- The directory has no line feed. -/
  line : ∀ path ∈ draft.database, '\n' ∉ path.toList
  /-- No text and no pattern has a line feed, and the dates are those of the calendar. -/
  parts : ∀ entry ∈ draft.nodes, ∀ part ∈ entry.2.parts, part.IsLegible

namespace Draft

/-- The directory is the trimmed end of the line. -/
theorem exists_of_databaseLine? {line path : List Char} (h : databaseLine? line = some path) :
    ∃ rest, path = Text.trim rest ∧ ∀ c ∈ rest, c ∈ line := by
  obtain ⟨rest, found, h⟩ := Option.bind_eq_some_iff.1 h
  obtain ⟨-, -, h⟩ := Option.bind_eq_some_iff.1 h
  refine ⟨rest, (Option.some.inj h).symm, ?_⟩
  rw [LineReader.afterWord?] at found
  split at found
  · obtain rfl := Option.some.inj found
    exact fun c member => List.mem_of_mem_drop member
  · cases found

/-- A line keeps the condition. -/
theorem IsPlain.addLine {draft draft' : Draft} (h : draft.IsPlain) {number : Nat} {raw : List Char}
    (oneLine : '\n' ∉ raw) (added : draft.addLine number raw = .ok draft') : draft'.IsPlain := by
  -- a line is only cut, so that no part of it has a line feed
  have inTrimmed : '\n' ∉ Text.trim raw := fun member => oneLine (Text.mem_of_mem_trim member)
  unfold Draft.addLine at added
  dsimp only at added
  split at added
  · -- a blank line or a comment
    cases added
    exact h
  · split at added
    · -- the line of the directory
      rename_i path named
      obtain ⟨rest, rfl, inside⟩ := exists_of_databaseLine? named
      split_ifs at added with empty
      cases added
      refine ⟨?_, ?_, h.parts⟩
      · rintro _ ⟨⟩
        rw [String.toList_ofList]
        exact Text.isTrimmed_trim empty
      · rintro _ ⟨⟩
        rw [String.toList_ofList]
        exact fun member => inTrimmed (inside _ (Text.mem_of_mem_trim member))
    · -- the line of a node
      split at added
      · cases added
      · rename_i node read
        cases added
        refine ⟨h.trimmed, h.line, fun entry member => ?_⟩
        rcases List.mem_append.1 member with earlier | new
        · exact h.parts entry earlier
        · rw [List.mem_singleton.1 new]
          exact Node.isLegible_of_ofLine inTrimmed read

/-- Lines without line feeds keep a draft plain. -/
theorem IsPlain.addLines {draft draft' : Draft} (h : draft.IsPlain) {number : Nat}
    {lines : List (List Char)} (oneLine : ∀ line ∈ lines, '\n' ∉ line)
    (added : draft.addLines number lines = .ok draft') : draft'.IsPlain := by
  induction lines generalizing draft number with
  | nil =>
    cases added
    exact h
  | cons line rest ih =>
    obtain ⟨next, first, others⟩ := bind_eq_ok_iff.1 added
    exact ih (h.addLine (oneLine line List.mem_cons_self) first)
      (fun line member => oneLine line (List.mem_cons_of_mem _ member)) others

/-- The plan that a draft describes. -/
theorem finish_eq_ok_iff {draft : Draft} {lines : Nat} {plan : Plan} :
    draft.finish lines = .ok plan ↔
      plan.database = draft.database.getD defaultDatabase ∧ plan.nodes = draft.nodes.map (·.2) := by
  rw [finish]
  split
  · rename_i empty
    refine iff_of_false nofun fun ⟨_, nodes⟩ => plan.nodes_ne_nil ?_
    rw [nodes, empty, List.map_nil]
  · rw [mapError_eq_ok_iff, Plan.ofNodes_eq_ok_iff]

end Draft

namespace Plan

/-- The draft of a plan that was read. -/
theorem exists_draft_of_parse {source : String} {plan : Plan}
    (read : Plan.parse source = .ok plan) :
    ∃ draft : Draft, draft.IsPlain ∧ plan.database = draft.database.getD Draft.defaultDatabase ∧
      plan.nodes = draft.nodes.map (·.2) := by
  obtain ⟨draft, added, finished⟩ := bind_eq_ok_iff.1 read
  have start : Draft.IsPlain {} := ⟨nofun, nofun, nofun⟩
  exact ⟨draft, start.addLines (fun _ => Text.newline_notMem_of_mem_lines) added,
    Draft.finish_eq_ok_iff.1 finished⟩

/-- The directory of a plan that was read is not empty, has no blank at either end and no line
feed. -/
theorem isTrimmed_of_parse {source : String} {plan : Plan} (read : Plan.parse source = .ok plan) :
    Text.IsTrimmed plan.database.toList ∧ '\n' ∉ plan.database.toList := by
  obtain ⟨draft, plain, database, -⟩ := exists_draft_of_parse read
  rw [database]
  cases named : draft.database with
  | none => decide
  | some path => exact ⟨plain.trimmed path named, plain.line path named⟩

/-- The expressions of a plan that was read are legible. -/
theorem isLegible_of_parse {source : String} {plan : Plan} (read : Plan.parse source = .ok plan)
    {node : Node} (member : node ∈ plan.nodes) : ∀ part ∈ node.parts, part.IsLegible := by
  obtain ⟨draft, plain, -, nodes⟩ := exists_draft_of_parse read
  rw [nodes] at member
  obtain ⟨entry, listed, rfl⟩ := List.mem_map.1 member
  exact plain.parts entry listed

/-- No text and no pattern of a plan that was read has a line feed. -/
theorem isOnOneLine_of_parse {source : String} {plan : Plan} (read : Plan.parse source = .ok plan)
    {node : Node} (member : node ∈ plan.nodes) : ∀ part ∈ node.parts, part.IsOnOneLine :=
  fun part inside => (isLegible_of_parse read member part inside).line

end Plan

end PlanCompiler
