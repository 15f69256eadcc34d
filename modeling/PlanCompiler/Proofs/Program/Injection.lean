import PlanCompiler.Proofs.Lowering.Blanking.Batches
import PlanCompiler.Proofs.Lowering.Pipelines
import PlanCompiler.Proofs.Program.Definitions
import PlanCompiler.Proofs.Program.Quiet

/-!
# The strings of a plan in its program

A plan and the blanked one have programs that differ in the contents of literals only, and the lines
with these literals end outside of literals. So whatever the strings of a plan are, they only decide
on what stands between quotes: two plans that differ in their strings only have programs that are
the same once each literal is replaced by a token.

## Main definitions

* `Sections.Alike`, `Program.Alike`: parts of programs that differ in the contents of literals only.

## Main results

* `Plan.endsAlike_program_blanked`: the programs of a plan and of the blanked one;
* `Plan.exists_generate_same_without_literals`: no string of a plan changes code outside of
  literals.
-/

namespace PlanCompiler

open Scope (linesText linesOfAll_singleton)

/-! ## Sections -/

/-- Sections whose definitions differ in the contents of literals only. -/
structure Sections.Alike (a b : Sections) : Prop where
  definitions : (a.definitions.flatMap Definition.lines).map Line.masked =
    (b.definitions.flatMap Definition.lines).map Line.masked
  declarations : a.declarations = b.declarations
  setup : a.setup = b.setup
  released : a.released = b.released

namespace Sections.Alike

variable {a a' b b' : Sections}

/-- Sections are alike to themselves. -/
theorem refl (a : Sections) : a.Alike a := ⟨rfl, rfl, rfl, rfl⟩

/-- Alike sections in a row are alike. -/
theorem append (first : a.Alike a') (second : b.Alike b') : (a ++ b).Alike (a' ++ b') where
  definitions := by
    rw [definitions_append, definitions_append, List.flatMap_append, List.flatMap_append,
      List.map_append, List.map_append, first.definitions, second.definitions]
  declarations := congrArg₂ (· ++ ·) first.declarations second.declarations
  setup := congrArg₂ (· ++ ·) first.setup second.setup
  released := congrArg₂ (· ++ ·) first.released second.released

/-- Sections made alike of each element are alike together. -/
theorem concat_map {α : Type} {xs : List α} {f g : α → Sections}
    (each : ∀ x ∈ xs, (f x).Alike (g x)) :
    (Sections.concat (xs.map f)).Alike (Sections.concat (xs.map g)) := by
  induction xs with
  | nil => exact .refl _
  | cons x rest ih =>
    obtain ⟨first, others⟩ := List.forall_mem_cons.1 each
    exact first.append (ih others)

end Sections.Alike

/-- A function whose body is written with other contents of literals. -/
theorem Definition.map_masked_lines_function (comment : List String) (result : String) (name : Name)
    (parameters : List Code) {body body' : List Statement} (alike : Statement.Alike body body') :
    (function comment result name parameters body).lines.map Line.masked =
      (function comment result name parameters body').lines.map Line.masked := by
  have block := Statement.Alike.block (.refl .bare) alike 0
  rw [linesOfAll_singleton, linesOfAll_singleton] at block
  simp only [lines, List.map_append, List.map_cons, block]

namespace Table

/-- Loaders of differently named tables are alike. -/
theorem alike_load (table table' : String) (columns : List ScanColumn) :
    Statement.Alike (load table columns) (load table' columns) := by
  refine .append (.append ?_ (.refl _)) (.refl _)
  -- the name of the table stands in the statement that makes the path of its file
  iterate 8 refine .cons (.refl [_]) ?_
  exact .cons (.control (by simp) rfl) (.refl _)

/-- The sections of differently named tables are alike. -/
theorem alike_sections (node : Nat) (table table' : String) (columns : List ScanColumn) :
    (sections node table columns).Alike (sections node table' columns) where
  definitions := by
    simp only [sections, loader, List.flatMap_cons, List.map_append,
      Definition.map_masked_lines_function _ _ _ _ (alike_load table table' columns)]
  declarations := rfl
  setup := rfl
  released := rfl

end Table

namespace Plan

variable (plan : Plan)

/-- The sections of a plan's tables are alike without its strings. -/
theorem alike_tableSections_blanked :
    plan.tableSections.Alike plan.blanked.tableSections := by
  rw [tableSections, tableSections, blanked, List.zipIdx_map, List.map_map]
  refine .concat_map fun entry _ => ?_
  obtain ⟨node, position⟩ := entry
  cases node with
  | scan table columns => exact Table.alike_sections position table "t" columns
  | filter | project | join | aggregate => exact .refl _

/-- The function that prints rows has no literals of the plan. -/
theorem printerSections_blanked (countOnly : Bool) :
    plan.blanked.printerSections countOnly = plan.printerSections countOnly := by
  rw [printerSections, printerSections, outputSchema_blanked]

variable (checked countOnly simd : Bool)

/-- A plan and the one without its strings are lowered alike row by row. -/
theorem endsAlike_lowerScalar_blanked :
    EndsAlike (fun lowered lowered' =>
        lowered.1.Alike lowered'.1 ∧ Statement.Alike lowered.2 lowered'.2)
      (plan.lowerScalar checked countOnly) (plan.blanked.lowerScalar checked countOnly) := by
  rw [lowerScalar, lowerScalar, tree_blanked, printerSections_blanked]
  refine (plan.tree.endsAlike_rows_blanked checked).bind fun pipeline pipeline' alike => ?_
  rw [← alike.sections, ← alike.output]
  exact .ok ⟨(plan.alike_tableSections_blanked.append (.refl _)).append (.refl _),
    alike.close (.refl _)⟩

/-- A plan and the one without its strings are lowered alike batch by batch. -/
theorem endsAlike_lowerVectorised_blanked :
    EndsAlike (fun lowered lowered' =>
        lowered.1.Alike lowered'.1 ∧ Statement.Alike lowered.2 lowered'.2)
      (plan.lowerVectorised checked countOnly simd)
      (plan.blanked.lowerVectorised checked countOnly simd) := by
  rw [lowerVectorised, lowerVectorised, tree_blanked, printerSections_blanked]
  refine (plan.tree.endsAlike_batches_blanked checked simd).bind fun pipeline pipeline' alike => ?_
  rw [← alike.sections, ← alike.output]
  exact .ok ⟨(plan.alike_tableSections_blanked.append (.refl _)).append (.refl _),
    alike.close (.refl _)⟩

end Plan

/-! ## Programs -/

/-- Programs that differ in the contents of literals only. -/
structure Program.Alike (program program' : Program) : Prop where
  request : program.request = program'.request
  vectorSize : program.vectorSize = program'.vectorSize
  sections : program.sections.Alike program'.sections
  body : Statement.Alike program.body program'.body

namespace Program.Alike

variable {program program' : Program} (alike : program.Alike program')
include alike

/-- Alike programs have the same fixed part. -/
theorem preamble : program.preamble = program'.preamble := by
  rw [Program.preamble, Program.preamble, alike.request, alike.vectorSize]

/-- The directory of the tables is the start value of a variable. -/
theorem standardVariables :
    Statement.Alike program.standardVariables program'.standardVariables := by
  rw [Program.standardVariables, Program.standardVariables, alike.request]
  refine .append (.append ?_ (.refl _)) (.refl _)
  exact .cons (.refl [_]) (.cons (.line (by simp)) (.refl _))

/-- Alike programs have the same masked lines behind the fixed part. -/
theorem ownLines : program.ownLines.map Line.masked = program'.ownLines.map Line.masked := by
  have start : program.start = program'.start := by
    rw [Program.start, Program.start, alike.request, alike.sections.setup]
  have finish : program.finish = program'.finish := by
    rw [Program.finish, Program.finish, alike.request]
  have cleanup : program.cleanup = program'.cleanup := by
    rw [Program.cleanup, Program.cleanup, alike.sections.released]
  simp only [Program.ownLines, runMain, List.map_append, alike.sections.definitions,
    alike.sections.declarations, alike.standardVariables 1, alike.body 1, start, finish, cleanup]

/-- Programs that are alike are the same text once each literal is replaced by a token. -/
theorem withoutLiterals_text (closed : AllOf Line.IsClosed program.ownLines)
    (closed' : AllOf Line.IsClosed program'.ownLines) (token : String) :
    withoutLiterals token program.text = withoutLiterals token program'.text := by
  rw [withoutLiterals, withoutLiterals, toList_text, toList_text, Spot.erase_append,
    Spot.erase_append, ← alike.preamble, after_preamble,
    Spot.erase_linesText_eq closed closed' alike.ownLines]

end Program.Alike

namespace Plan

/-- The programs of a plan and of the blanked one. -/
theorem endsAlike_program_blanked (plan : Plan) (request : Request) (vectorSize : Nat) :
    EndsAlike Program.Alike (plan.program request vectorSize)
      (plan.blanked.program request vectorSize) := by
  rw [program, program]
  cases request.stage with
  | scalar =>
    exact (plan.endsAlike_lowerScalar_blanked _ _).bind fun _ _ alike =>
      .ok ⟨rfl, rfl, alike.1, alike.2⟩
  | vectorised =>
    exact (plan.endsAlike_lowerVectorised_blanked _ _ _).bind fun _ _ alike =>
      .ok ⟨rfl, rfl, alike.1, alike.2⟩

/-- The text that is generated is that of the program. -/
theorem generate_eq_ok {plan : Plan} {request : Request} {vectorSize : Nat} {program : Program}
    (lowered : plan.program request vectorSize = .ok program) :
    plan.generate request vectorSize = .ok { request, text := program.text } := by
  rw [generate, lowered]
  rfl

/-- A plan and the blanked one have programs that are the same without literals. -/
theorem exists_generate_blanked (plan : Plan) (request : Request) (vectorSize : Nat)
    (token : String) :
    ∃ source source', plan.generate request vectorSize = .ok source ∧
      plan.blanked.generate request vectorSize = .ok source' ∧
      withoutLiterals token source.text = withoutLiterals token source'.text := by
  obtain ⟨program, lowered, -⟩ := plan.yields_program request vectorSize
  obtain ⟨program', lowered', alike⟩ :=
    (plan.endsAlike_program_blanked request vectorSize).exists_of_eq_ok lowered
  have closed := plan.gives_isClosed_program request vectorSize program lowered
  have closed' := plan.blanked.gives_isClosed_program request vectorSize program' lowered'
  refine ⟨_, _, generate_eq_ok lowered, generate_eq_ok lowered', ?_⟩
  dsimp only
  exact alike.withoutLiterals_text closed closed' token

/-- No string of a plan changes code outside of literals: plans that differ only in their directory
of tables, their table names, their texts and their patterns have programs that are the same once
each string literal is replaced by a token, in both stages, with any flags and any number of rows
in a batch. -/
theorem exists_generate_same_without_literals {p q : Plan}
    (alike : p.nodes.map Node.blanked = q.nodes.map Node.blanked) (request : Request)
    (vectorSize : Nat) (token : String) :
    ∃ source source', p.generate request vectorSize = .ok source ∧
      q.generate request vectorSize = .ok source' ∧
      withoutLiterals token source.text = withoutLiterals token source'.text := by
  obtain ⟨source, common, generated, blanked, same⟩ :=
    p.exists_generate_blanked request vectorSize token
  obtain ⟨source', common', generated', blanked', same'⟩ :=
    q.exists_generate_blanked request vectorSize token
  rw [← blanked_eq_iff.2 alike] at blanked'
  obtain rfl : common = common' := Except.ok.inj (blanked.symm.trans blanked')
  exact ⟨source, source', generated, generated', same.trans same'.symm⟩

/-- A search for a name, or for names of a form. -/
def searchNodes (table name pattern : String) : List Node :=
  [.scan table [⟨0, .int⟩, ⟨1, .text⟩],
    .filter 0 (.junction .or [.binary .eq (.column 1) (.text name), .like (.column 1) pattern])]

/-- A search for Ada. -/
def plainSearch : Plan where
  database := "/data"
  nodes := searchNodes "customers" "Ada" "Ad%"
  schemas := [[.int, .text], [.int, .text]]
  valid := by rfl

/-- A search whose strings try to leave their literals. -/
def hostileSearch : Plan where
  database := "\"; system(argv[1]); //"
  nodes := searchNodes "users" "\\\") == 0 || abort() || (\"" "??/\"\n*/%\\"
  schemas := [[.int, .text], [.int, .text]]
  valid := by rfl

theorem exists_generate_same_without_literals_hostileSearch :
    plainSearch.nodes.map Node.blanked = hostileSearch.nodes.map Node.blanked ∧
      ∃ source source',
        plainSearch.generate { stage := .vectorised, flags := .simdHints, supported := rfl } 1024 =
          .ok source ∧
        hostileSearch.generate
            { stage := .vectorised, flags := .simdHints, supported := rfl } 1024 =
          .ok source' ∧
        withoutLiterals "text" source.text = withoutLiterals "text" source'.text := by
  have alike : plainSearch.nodes.map Node.blanked = hostileSearch.nodes.map Node.blanked := rfl
  exact ⟨alike, exists_generate_same_without_literals alike _ 1024 "text"⟩

end Plan

end PlanCompiler
