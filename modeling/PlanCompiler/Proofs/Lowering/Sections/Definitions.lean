import PlanCompiler.Lowering.Batch

/-!
# What sections define

Variables define no types and no functions, so joins define nothing and an aggregation defines the
type and the functions of its hash table if it has one.

## Main definitions

* `Groups.definitions`: the hash table of an aggregation.

## Main results

* `Sections.definitions_concat`: what is defined by several sections;
* `Join.definitions_sections`, `Groups.definitions_sections`: what operators define.
-/

namespace PlanCompiler

namespace Sections

/-- What is defined by two sections. -/
@[simp]
theorem definitions_append (a b : Sections) :
    (a ++ b).definitions = a.definitions ++ b.definitions :=
  rfl

/-- A variable defines nothing. -/
@[simp]
theorem definitions_plain (type : String) (name : Name) (initial : Code) :
    (plain type name initial).definitions = [] :=
  rfl

/-- Nor does a pointer. -/
@[simp]
theorem definitions_buffer (type : String) (name : Name) : (buffer type name).definitions = [] :=
  rfl

/-- Nor does the memory for the values of a batch. -/
@[simp]
theorem definitions_vector (type : String) (name : Name) : (vector type name).definitions = [] :=
  rfl

/-- What is defined by several sections. -/
theorem definitions_concat (all : List Sections) :
    (concat all).definitions = all.flatMap definitions := by
  induction all with
  | nil => rfl
  | cons first rest ih => rw [concat, definitions_append, ih, List.flatMap_cons]

/-- Variables of several columns define nothing. -/
theorem definitions_concat_map {ι : Type} {one : ι → Sections}
    (none : ∀ x, (one x).definitions = []) (xs : List ι) :
    (concat (xs.map one)).definitions = [] := by
  rw [definitions_concat, List.flatMap_map]
  exact List.flatMap_eq_nil_iff.2 fun x _ => none x

end Sections

/-- A join only has variables. -/
theorem Join.definitions_sections (join : Join) : join.sections.definitions = [] :=
  List.append_eq_nil_iff.2 ⟨List.append_eq_nil_iff.2
    ⟨Sections.definitions_concat_map (fun _ => rfl) _, rfl⟩, rfl⟩

/-- So do the buffers for the rows of a join. -/
theorem Join.definitions_outputSections (join : Join) (schema : Schema) :
    (join.outputSections schema).definitions = [] :=
  Sections.definitions_concat_map (fun _ => rfl) _

/-- A projection to batches only has vectors. -/
theorem BatchPipeline.definitions_projectionSections (node : Nat) (types : Schema) :
    (projectionSections node types).definitions = [] :=
  Sections.definitions_concat_map (fun _ => rfl) _

/-- The printer of rows is there unless the rows are only counted, whatever the stage. -/
theorem Plan.definitions_printerSections (plan : Plan) (countOnly : Bool) :
    (plan.printerSections countOnly).definitions =
      if countOnly then [] else [RowPrinter.definition plan.outputSchema] := by
  cases countOnly <;> rfl

/-- What an aggregation defines: its hash table, if it has groups. -/
def Groups.definitions (groups : Groups) : List Definition :=
  if groups.isGrouped then
    [groups.recordType, groups.hashFunction, groups.growFunction, groups.findFunction]
  else []

/-- The accumulators of an aggregation without groups are variables. -/
theorem Groups.definitions_sections (groups : Groups) :
    groups.sections.definitions = groups.definitions := by
  rw [sections, definitions]
  split
  · rfl
  · rw [Sections.definitions_append, Sections.definitions_concat_map fun _ => rfl, List.append_nil]
    split <;> rfl

end PlanCompiler
