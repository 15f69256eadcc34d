import Mathlib.Data.List.GetD
import PlanCompiler.Proofs.Plan.Rejection
import PlanCompiler.Proofs.Text.Blank

/-!
# Blank lines and comments

Blank lines and comments may be inserted anywhere in a text plan. The plan that is read is the same,
and so is the reason for which a text is refused, which is attributed to the same line. What is read
and where it is read are independent of each other: only the numbers of the lines of nodes depend on
where these stand, and only errors mention them. A text without any node is refused at its last
line, whichever that is.

## Main definitions

* `Text.SaysNothing`: a line is blank or a comment;
* `Text.Insertion`: lines with further lines among them;
* `Text.Insertion.place`: the number of a line after the insertion;
* `Draft.renumber`: a draft with other numbers of lines.

## Main results

* `Text.Insertion.getElem?_place`: the line at the new number is the old one;
* `Draft.addLine_renumber`: reading a line commutes with numbering;
* `Draft.addLines_insertion`: so does reading lines among which others are inserted;
* `Plan.ends_parse`: an error is attributed to one of the lines;
* `Plan.parse_of_insertion`: plans and errors after the insertion.
-/

namespace PlanCompiler

namespace Text

/-! ## Lines among others -/

/-- A line says nothing: the first character that is no blank starts a comment, if there is one. -/
def SaysNothing (line : List Char) : Prop := ∀ c ∈ (line.dropWhile isBlank).head?, c = '#'

/-- The test finds the lines that are blank or start with a comment. -/
theorem saysNothing_iff {line : List Char} :
    (line.dropWhile isBlank).head?.all (fun c => decide (c = '#')) = true ↔ SaysNothing line := by
  rw [Option.all_eq_true]
  simp only [decide_eq_true_iff]
  rfl

instance (line : List Char) : Decidable (SaysNothing line) :=
  decidable_of_iff _ saysNothing_iff

/-- A line that says nothing is trimmed to nothing or to a comment. -/
theorem SaysNothing.trim {line : List Char} (quiet : SaysNothing line) :
    Text.trim line = [] ∨ (Text.trim line).head? = some '#' := by
  obtain ⟨dropped, whole⟩ := exists_dropWhile_eq_trim_append line
  cases trimmed : Text.trim line with
  | nil => exact .inl rfl
  | cons c rest =>
    rw [trimmed] at whole
    refine .inr (congrArg some (quiet c ?_))
    rw [whole]
    rfl

/-- Lines among which others are inserted. -/
structure Insertion where
  /-- The lines, each behind those that are inserted in front of it. -/
  blocks : List (List (List Char) × List Char)
  /-- The lines that are inserted at the end. -/
  last : List (List Char)

namespace Insertion

variable (insertion : Insertion)

/-- The lines without those that are inserted. -/
def original : List (List Char) := insertion.blocks.map (·.2)

/-- The lines that are inserted. -/
def inserted : List (List Char) := insertion.blocks.flatMap (·.1) ++ insertion.last

/-- All lines in their order. -/
def lines : List (List Char) :=
  insertion.blocks.flatMap (fun block => block.1 ++ [block.2]) ++ insertion.last

/-- The number of a line after the insertion: there are as many more lines in front of it as are
inserted there. Lines are counted from one. -/
def place (number : Nat) : Nat :=
  number + ((insertion.blocks.take number).flatMap (·.1)).length

/-- The last line of a block stands behind all lines that are inserted up to it. -/
theorem getElem?_flatMap_blocks {blocks : List (List (List Char) × List Char)} {position : Nat}
    (inside : position < blocks.length) :
    (blocks.flatMap fun block => block.1 ++ [block.2])[
        position + ((blocks.take (position + 1)).flatMap (·.1)).length]? =
      (blocks.map (·.2))[position]? := by
  induction blocks generalizing position with
  | nil => cases inside
  | cons block rest ih =>
    rw [List.flatMap_cons, List.take_succ_cons, List.flatMap_cons, List.length_append]
    -- the first block is passed as a whole, what is inserted and its own line
    cases position with
    | zero => simp
    | succ position =>
      rw [List.getElem?_append_right (by simp; omega), List.map_cons, List.getElem?_cons_succ,
        ← ih (Nat.lt_of_succ_lt_succ inside)]
      congr 1
      simp only [List.length_append, List.length_singleton]
      omega

/-- The line with the new number of a line is that line. -/
theorem getElem?_place {position : Nat} (inside : position < insertion.original.length) :
    insertion.lines[insertion.place (position + 1) - 1]? = insertion.original[position]? := by
  rw [original, List.length_map] at inside
  have found := getElem?_flatMap_blocks inside
  have index : insertion.place (position + 1) - 1 =
      position + ((insertion.blocks.take (position + 1)).flatMap (·.1)).length := by
    unfold place
    omega
  have among : position < (insertion.blocks.map (·.2)).length := by rwa [List.length_map]
  rw [List.getElem?_eq_getElem among] at found
  obtain ⟨below, -⟩ := List.getElem?_eq_some_iff.1 found
  rw [lines, original, index, List.getElem?_append_left below, found,
    List.getElem?_eq_getElem among]

end Insertion

end Text

/-! ## Numbers of lines -/

/-- An error that is attributed to another line. -/
def TextError.renumber (place : Nat → Nat) (error : TextError) : TextError :=
  { error with line := place error.line }

/-- An error other than that there are no nodes, which is attributed to one of the first `lines`
lines. -/
structure TextError.IsWithin (lines : Nat) (error : TextError) : Prop where
  /-- There are nodes. -/
  other : error.fault ≠ .invalid .noNodes
  /-- The line is not before the first one. -/
  first : 1 ≤ error.line
  /-- The line is not beyond the last one. -/
  last : error.line ≤ lines

namespace Draft

/-- A draft whose nodes stand on other lines. -/
def renumber (place : Nat → Nat) (draft : Draft) : Draft :=
  { draft with nodes := draft.nodes.map fun entry => (place entry.1, entry.2) }

/-- What a line says does not depend on the numbers of the lines. -/
theorem addLine_renumber (place : Nat → Nat) (draft : Draft) (number : Nat) (raw : List Char) :
    (draft.renumber place).addLine (place number) raw =
      ((draft.addLine number raw).map (renumber place)).mapError (TextError.renumber place) := by
  unfold addLine
  dsimp only
  -- of all that a line may say, only a node and an error have a number with them
  split
  · rfl
  · cases databaseLine? (Text.trim raw) with
    | some path =>
      dsimp only [renumber]
      by_cases empty : path = []
      · rw [if_pos empty, if_pos empty]
        rfl
      · rw [if_neg empty, if_neg empty]
        obtain ⟨database, nodes⟩ := draft
        cases database <;> rfl
    | none =>
      dsimp only
      cases Node.ofLine (Text.trim raw) with
      | error fault => rfl
      | ok node =>
        show Except.ok _ = Except.ok _
        simp only [renumber, List.map_append, List.map_cons, List.map_nil]

/-- Lines are read one list after the other, and numbered on. -/
theorem addLines_append (draft : Draft) (number : Nat) (front back : List (List Char)) :
    draft.addLines number (front ++ back) =
      draft.addLines number front >>= fun next => next.addLines (number + front.length) back := by
  induction front generalizing draft number with
  | nil => rfl
  | cons line rest ih =>
    rw [List.cons_append, addLines, addLines, bind_assoc, List.length_cons]
    refine bind_congr fun next => ?_
    rw [ih, Nat.add_assoc, Nat.add_comm 1]

/-- A line that says nothing leaves the draft. -/
theorem addLine_of_saysNothing {draft : Draft} {number : Nat} {raw : List Char}
    (quiet : Text.SaysNothing raw) : draft.addLine number raw = .ok draft := by
  unfold addLine
  exact if_pos quiet.trim

/-- Lines that say nothing leave the draft. -/
theorem addLines_of_saysNothing {draft : Draft} {number : Nat} {lines : List (List Char)}
    (quiet : ∀ line ∈ lines, Text.SaysNothing line) : draft.addLines number lines = .ok draft := by
  induction lines generalizing number with
  | nil => rfl
  | cons line rest ih =>
    obtain ⟨first, others⟩ := List.forall_mem_cons.1 quiet
    rw [addLines, addLine_of_saysNothing first]
    exact ih others

/-- Reading lines among which others are inserted, from some line on. -/
theorem addLines_blocks {blocks : List (List (List Char) × List Char)}
    (quiet : ∀ block ∈ blocks, ∀ line ∈ block.1, Text.SaysNothing line) {place : Nat → Nat}
    (draft : Draft) {number number' : Nat}
    (placed : ∀ position < blocks.length, place (number + position) =
      number' + position + ((blocks.take (position + 1)).flatMap (·.1)).length) :
    (draft.renumber place).addLines number' (blocks.flatMap fun block => block.1 ++ [block.2]) =
      ((draft.addLines number (blocks.map (·.2))).map (renumber place)).mapError
        (TextError.renumber place) := by
  -- the two counters differ by the lines inserted so far, which `placed` says for all later lines
  induction blocks generalizing draft number number' with
  | nil => rfl
  | cons block rest ih =>
    obtain ⟨first, others⟩ := List.forall_mem_cons.1 quiet
    have here : number' + block.1.length = place number := by
      have := placed 0 (Nat.succ_pos _)
      simpa using this.symm
    rw [List.flatMap_cons, List.append_assoc, addLines_append, addLines_of_saysNothing first,
      List.map_cons, addLines]
    show (draft.renumber place).addLines (number' + block.1.length) (block.2 :: _) = _
    rw [addLines, here, addLine_renumber]
    cases draft.addLine number block.2 with
    | error error => rfl
    | ok next =>
      refine ih others next fun position inside => ?_
      have := placed (position + 1) (Nat.succ_lt_succ inside)
      rw [List.take_succ_cons, List.flatMap_cons, List.length_append] at this
      rw [Nat.add_assoc, Nat.add_comm 1, this, ← here]
      omega

/-! ## Lines of errors -/

/-- The nodes stand on some of the first `lines` lines. -/
def IsWithin (lines : Nat) (draft : Draft) : Prop :=
  ∀ entry ∈ draft.nodes, 1 ≤ entry.1 ∧ entry.1 ≤ lines

/-- A line is read, or an error is reported at a line of the text. -/
theorem ends_addLine {draft : Draft} {lines number : Nat} (within : draft.IsWithin lines)
    (first : 1 ≤ number) (last : number ≤ lines) (raw : List Char) :
    Ends (draft.addLine number raw) (IsWithin lines) (TextError.IsWithin lines) := by
  have here {fault : TextFault} (other : fault ≠ .invalid .noNodes) :
      TextError.IsWithin lines { line := number, fault } :=
    ⟨other, first, last⟩
  unfold addLine
  dsimp only
  split
  · exact within
  · split
    · split
      · exact here nofun
      · split
        · exact here nofun
        · exact within
    · split
      · exact here nofun
      · -- the new node stands on this line
        intro entry member
        rcases List.mem_append.1 member with member | member
        · exact within entry member
        · obtain rfl := List.mem_singleton.1 member
          exact ⟨first, last⟩

/-- An error is attributed to one of the lines that are read. -/
theorem ends_addLines {draft : Draft} {lines number : Nat} (within : draft.IsWithin lines)
    (first : 1 ≤ number) {others : List (List Char)} (last : number + others.length ≤ lines + 1) :
    Ends (draft.addLines number others) (IsWithin lines) (TextError.IsWithin lines) := by
  induction others generalizing draft number with
  | nil => exact within
  | cons line rest ih =>
    rw [List.length_cons] at last
    exact (ends_addLine within first (by omega) line).bind fun next kept =>
      ih kept (Nat.le_succ_of_le first) (by omega)

/-- The lines of a text are read, or an error is reported at one of them. -/
theorem ends_addLines_start (lines : List (List Char)) :
    Ends (Draft.addLines {} 1 lines) (IsWithin lines.length) (TextError.IsWithin lines.length) := by
  have start : Draft.IsWithin lines.length {} := List.forall_mem_nil _
  exact ends_addLines start (Nat.le_refl 1) (Nat.add_comm 1 lines.length).le

/-- The table of lines has the line of every node. -/
theorem getD_map_fst_within {draft : Draft} {lines position : Nat} (within : draft.IsWithin lines)
    (inside : position < draft.nodes.length) :
    1 ≤ (draft.nodes.map (·.1)).getD position 0 ∧
      (draft.nodes.map (·.1)).getD position 0 ≤ lines := by
  have found : (draft.nodes.map (·.1)).getD position 0 = draft.nodes[position].1 := by
    simp [List.getD_eq_getElem?_getD, inside]
  rw [found]
  exact within _ (List.getElem_mem inside)

/-- The error of a draft: there are no nodes, which is attributed to the last line, or something is
wrong with one of them, which is attributed to the line of that node. -/
theorem ends_finish {draft : Draft} {lines : Nat} (within : draft.IsWithin lines) :
    Ends (draft.finish lines) (fun _ => True) fun error =>
      error.fault = .invalid .noNodes ∧ error.line = max lines 1 ∨ error.IsWithin lines := by
  unfold finish
  split
  · exact .inl ⟨rfl, rfl⟩
  -- a plan without nodes was told apart, so that any other fault belongs to a node
  · rename_i nonempty
    have filled : draft.nodes.map (·.2) ≠ [] := by simpa using nonempty
    cases made : Plan.ofNodes (draft.database.getD defaultDatabase) (draft.nodes.map (·.2)) with
    | ok plan => exact True.intro
    | error error =>
      have invalid := Plan.ofNodes_eq_error_iff.1 made
      obtain ⟨inside, other⟩ := lt_length_and_ne_of_validate_eq_error filled invalid
      rw [List.length_map] at inside
      obtain ⟨first, last⟩ := getD_map_fst_within within inside
      exact .inr ⟨fun same => other (TextFault.invalid.inj same), first, last⟩

/-- An error of a text among whose lines others are inserted: it is attributed to the same line,
but that there are no nodes is attributed to the last of `lines` lines. -/
def shiftError (place : Nat → Nat) (lines : Nat) (error : TextError) : TextError :=
  if error.fault = .invalid .noNodes then { error with line := max lines 1 }
  else error.renumber place

/-- The plan of a draft does not depend on the lines of the nodes. -/
theorem finish_renumber {place : Nat → Nat} (zero : place 0 = 0) (draft : Draft)
    (lines lines' : Nat) :
    (draft.renumber place).finish lines' =
      (draft.finish lines).mapError (shiftError place lines') := by
  unfold finish
  by_cases empty : draft.nodes = []
  · have none : (draft.renumber place).nodes = [] := congrArg (List.map _) empty
    rw [if_pos empty, if_pos none]
    rfl
  · have some : (draft.renumber place).nodes ≠ [] := fun none => empty (List.map_eq_nil_iff.1 none)
    have nodes : (draft.renumber place).nodes.map (·.2) = draft.nodes.map (·.2) := by
      simp [renumber]
    have numbers : (draft.renumber place).nodes.map (·.1) =
        (draft.nodes.map (·.1)).map place := by
      simp [renumber]
    have filled : draft.nodes.map (·.2) ≠ [] := by simpa using empty
    rw [if_neg empty, if_neg some, nodes, numbers]
    show (Plan.ofNodes (draft.database.getD defaultDatabase) _).mapError _ = _
    cases made : Plan.ofNodes (draft.database.getD defaultDatabase) (draft.nodes.map (·.2)) with
    | ok plan => rfl
    | error error =>
      -- the node at fault is the same, and its line is looked up in the other table
      have invalid := Plan.ofNodes_eq_error_iff.1 made
      obtain ⟨-, other⟩ := lt_length_and_ne_of_validate_eq_error filled invalid
      have shifted := List.getD_map (l := draft.nodes.map (·.1)) (n := error.node) (d := 0) place
      rw [zero] at shifted
      show Except.error _ = Except.error (shiftError place lines' _)
      rw [shiftError, if_neg fun same => other (TextFault.invalid.inj same)]
      exact congrArg (fun line => Except.error (TextError.mk line (.invalid error.fault))) shifted

/-- Reading lines among which others are inserted. -/
theorem addLines_insertion {insertion : Text.Insertion}
    (quiet : ∀ line ∈ insertion.inserted, Text.SaysNothing line) :
    Draft.addLines {} 1 insertion.lines =
      ((Draft.addLines {} 1 insertion.original).map (renumber insertion.place)).mapError
        (TextError.renumber insertion.place) := by
  obtain ⟨inBlocks, atEnd⟩ := List.forall_mem_append.1 quiet
  have placed (position : Nat) (_ : position < insertion.blocks.length) :
      insertion.place (1 + position) =
        1 + position + ((insertion.blocks.take (position + 1)).flatMap (·.1)).length := by
    rw [Nat.add_comm 1]
    rfl
  have read := addLines_blocks (fun block member line inside =>
    inBlocks line (List.mem_flatMap.2 ⟨block, member, inside⟩)) {} placed
  have start : Draft.renumber insertion.place {} = {} := rfl
  rw [start] at read
  rw [Text.Insertion.lines, addLines_append, read, Text.Insertion.original]
  -- what is inserted at the end is only reached without an error
  cases Draft.addLines {} 1 (insertion.blocks.map (·.2)) with
  | error error => rfl
  | ok draft => exact addLines_of_saysNothing atEnd

end Draft

namespace Plan

/-- Reading a text is reading its lines without those that say nothing. -/
theorem parse_eq_mapError {source twin : String} {insertion : Text.Insertion}
    (quiet : ∀ line ∈ insertion.inserted, Text.SaysNothing line)
    (before : Text.lines source.toList = insertion.original)
    (after : Text.lines twin.toList = insertion.lines) :
    Plan.parse twin =
      (Plan.parse source).mapError
        (Draft.shiftError insertion.place insertion.lines.length) := by
  unfold Plan.parse
  dsimp only
  rw [before, after, Draft.addLines_insertion quiet]
  have ends := Draft.ends_addLines_start insertion.original
  -- a fault of a line is never that there are no nodes
  cases added : Draft.addLines {} 1 insertion.original with
  | error error =>
    rw [added] at ends
    exact congrArg Except.error (if_neg ends.other).symm
  | ok draft => exact draft.finish_renumber rfl _ _

/-- The error of a text is attributed to one of its lines. -/
theorem ends_parse (source : String) :
    Ends (Plan.parse source) (fun _ => True) fun error =>
      error.fault = .invalid .noNodes ∧ error.line = max (Text.lines source.toList).length 1 ∨
        error.IsWithin (Text.lines source.toList).length :=
  ((Draft.ends_addLines_start (Text.lines source.toList)).impError fun _ => .inr).bind
    fun _ => Draft.ends_finish

/-- Lines that say nothing may be inserted anywhere in a text. The plan remains the same. So does
the reason for which the text is refused, and the line to which it is attributed is the same line:
its new number is the old one and the number of lines inserted in front of it. Only that there are
no nodes is attributed to the last line. -/
theorem parse_of_insertion {source twin : String} {insertion : Text.Insertion}
    (quiet : ∀ line ∈ insertion.inserted, Text.SaysNothing line)
    (before : Text.lines source.toList = insertion.original)
    (after : Text.lines twin.toList = insertion.lines) :
    (∀ plan, Plan.parse source = .ok plan → Plan.parse twin = .ok plan) ∧
      ∀ error, Plan.parse source = .error error → ∃ line,
        Plan.parse twin = .error { line, fault := error.fault } ∧
          if error.fault = .invalid .noNodes then line = max insertion.lines.length 1
          else line = insertion.place error.line ∧ 1 ≤ error.line ∧
            ∃ chars, insertion.original[error.line - 1]? = some chars ∧
              insertion.lines[line - 1]? = some chars := by
  rw [parse_eq_mapError quiet before after]
  constructor
  · intro plan parsed
    rw [parsed]
    rfl
  · intro error refused
    have ends := ends_parse source
    rw [refused] at ends ⊢
    rw [before] at ends
    -- without nodes no line is at fault; every other error is at a line of the source
    rcases ends with ⟨none, -⟩ | ⟨other, first, last⟩
    · refine ⟨max insertion.lines.length 1, congrArg Except.error (if_pos none), ?_⟩
      rw [if_pos none]
    · have inside : error.line - 1 < insertion.original.length := by omega
      have found := insertion.getElem?_place inside
      rw [Nat.sub_add_cancel first] at found
      refine ⟨insertion.place error.line, congrArg Except.error (if_neg other), ?_⟩
      rw [if_neg other]
      exact ⟨rfl, first, _, List.getElem?_eq_getElem inside,
        found.trans (List.getElem?_eq_getElem inside)⟩

/-- A filter that does not decide, with remarks. -/
def remarked : Text.Insertion where
  blocks := [([[]], "scan t 0:int".toList), (["  # all rows".toList], "filter 0 $0".toList)]
  last := ["\t".toList]

/-- The filter that is refused on the second line is refused on the fourth. -/
theorem parse_of_insertion_remarked :
    (∀ line ∈ remarked.inserted, Text.SaysNothing line) ∧
      Text.lines "scan t 0:int\nfilter 0 $0\n".toList = remarked.original ∧
      Text.lines "\nscan t 0:int\n  # all rows\nfilter 0 $0\n\t".toList = remarked.lines ∧
      Plan.parse "scan t 0:int\nfilter 0 $0\n" =
        .error ⟨2, .invalid (.predicateType .int)⟩ ∧
      Plan.parse "\nscan t 0:int\n  # all rows\nfilter 0 $0\n\t" =
        .error ⟨4, .invalid (.predicateType .int)⟩ := by
  have quiet : ∀ line ∈ remarked.inserted, Text.SaysNothing line := by
    decide +kernel
  have before : Text.lines "scan t 0:int\nfilter 0 $0\n".toList = remarked.original := by
    decide +kernel
  have after :
      Text.lines "\nscan t 0:int\n  # all rows\nfilter 0 $0\n\t".toList = remarked.lines := by
    decide +kernel
  have refused : Plan.parse "scan t 0:int\nfilter 0 $0\n" =
      .error ⟨2, .invalid (.predicateType .int)⟩ :=
    Ends.eq_error (by decide +kernel)
  obtain ⟨-, errors⟩ := parse_of_insertion quiet before after
  obtain ⟨line, parsed, same⟩ := errors _ refused
  obtain ⟨rfl, -⟩ := (if_neg (by decide)).mp same
  exact ⟨quiet, before, after, refused, parsed⟩

end Plan

end PlanCompiler
