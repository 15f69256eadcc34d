import PlanCompiler.Proofs.Lowering.Production.Batches

/-!
# Types of the generated program

Validation types the expressions and the rows of a plan, and lowering types them once more. Both
agree. An expression that validation gives a type is lowered to a value of that type, and every
operator hands rows on that have the types which validation gives it, in both stages. So wherever
the program declares something by the types of a plan, what is assigned or passed has these types:
the columns of a projection and the parameters of the function that prints a row.

## Main definitions

* `Producer.HandsOn`: a producer hands on something of given types;
* `Plan.TypedThroughout`: declarations and values of the program agree on their types.

## Main results

* `Plan.exists_unfolds`: every node of a plan unfolds to a well-typed tree;
* `Plan.lower_infer_and_typedThroughout`: lowering agrees with validation.
-/

namespace PlanCompiler

/-- A producer calls its consumer once, at a place where it has something of given types. -/
def Producer.HandsOn {ρ : Type} (typesOf : ρ → Schema) (producer : Producer ρ) (types : Schema) :
    Prop :=
  ∃ visits pipeline, producer.Realises visits pipeline ∧ typesOf pipeline.output = types

/-- Types of the columns of a batch. -/
def Batch.types (batch : Batch) : Schema := batch.columns.map BatchColumn.type

/-! ## Declared columns -/

/-- Variables for the columns of a projection, declared by the types of a schema, with the code of
their values. -/
def RowPipeline.declareColumns (k : Nat) (schema : Schema) (codes : List Code) : List Statement :=
  (schema.zip codes).zipIdx.flatMap fun ((type, code), j) =>
    let name := Name.ofNode .projection k (some s!"v{j}")
    [.declare (type.representation ++ " const ") name (" = " ++ code ++ ";"),
      .line ("(void)" ++ name ++ ";")]

/-- Assignments of the code of values to the vectors of a projection, in order. -/
def BatchPipeline.assignColumns (k : Nat) (codes : List Code) : List Statement :=
  codes.zipIdx.map fun (code, j) =>
    .line (.element (Name.ofNode .projection k (some s!"c{j}"))
      (Name.ofNode .projection k (some "i")) ++ " = " ++ code ++ ";")

/-- The printer of rows for some values: it has one parameter for each of them, of its type. -/
def RowPrinter.IsFor (row : List Value) (printer : Definition) : Prop :=
  ∃ body, printer = .function [] "static void" .printRow
    ("FILE *out" :: row.zipIdx.map fun (value, j) => value.type.representation ++ s!" v{j}") body

/-- The printer for a schema is the one for values of its types. -/
theorem RowPrinter.isFor_definition (row : List Value) :
    RowPrinter.IsFor row (RowPrinter.definition (row.map Value.type)) := by
  refine ⟨RowPrinter.body (row.map Value.type), ?_⟩
  rw [definition, List.zipIdx_map, List.map_map]
  rfl

/-! ## Projections -/

/-- Members that are made of those of a list in turn are paired with them. -/
theorem zip_map_zipIdx {α β : Type} (f : α × Nat → β) (xs : List α) :
    (xs.zipIdx.map f).zip xs = xs.zipIdx.map fun entry => (f entry, entry.1) := by
  have paired : (xs.zipIdx.map f).zip (xs.zipIdx.map Prod.fst) = _ := List.zip_map'
  rwa [List.zipIdx_map_fst] at paired

section

variable (checked : Bool) {input schema : Schema} {expressions : List Expr}

/-- A projection of rows declares its columns by the types of a schema, and computes values of these
types for them. -/
theorem RowPipeline.exists_declareColumns (k : Nat) {row : List Value}
    (types : row.map Value.type = input)
    (typed : List.Forall₂ (fun e type => e.infer input = .ok type) expressions schema) :
    ∃ values next, Expr.lowerEach checked row expressions = .ok values ∧
      values.map Value.type = schema ∧
      RowPipeline.project (.start row) checked ⟨k, schema⟩ expressions = .ok next ∧
      next.context = .enter .bare ::
        Context.runAll (declareColumns k schema (values.map Value.code)) := by
  subst types
  obtain ⟨values, lowered, rfl⟩ := Expr.yields_lowerEach checked typed
  refine ⟨values, _, lowered, rfl, bind_eq_ok_iff.2 ⟨values, lowered, rfl⟩, ?_⟩
  -- the values are bound one by one, each with its own type
  rw [declareColumns, List.zip_map', List.zipIdx_map, List.flatMap_map]
  show _ :: Context.runAll (bindColumns _) = _
  rw [bindColumns, List.flatMap_map]
  rfl

/-- A projection of batches has vectors for the types of a schema, and assigns values of these types
to them. -/
theorem BatchPipeline.exists_assignColumns (simd : Bool) (k : Nat) {batch : Batch}
    (types : batch.types = input)
    (typed : List.Forall₂ (fun e type => e.infer input = .ok type) expressions schema) :
    ∃ values next,
      Expr.lowerEach checked (batch.row (.ofNode .projection k (some "i"))) expressions =
        .ok values ∧
      values.map Value.type = schema ∧
      BatchPipeline.project (.start batch) checked simd ⟨k, schema⟩ input expressions = .ok next ∧
      next.sections = projectionSections k schema ∧
      ∃ head, next.context =
        [.run (.block head (assignColumns k (values.map Value.code)))] := by
  -- lowering infers the types of the vectors once more, and finds those of the schema
  have inferred : (expressions.mapM fun e => (e.infer input).mapError
      fun error => LoweringError.illTyped error.message) = .ok schema :=
    mapM_eq_ok_iff.2 (typed.imp fun _ _ typed => mapError_eq_ok_iff.2 typed)
  subst types
  rw [Batch.types, ← Batch.row_types _ (.ofNode .projection k (some "i"))] at typed
  obtain ⟨values, lowered, rfl⟩ := Expr.yields_lowerEach checked typed
  refine ⟨values, _, lowered, rfl,
    bind_eq_ok_iff.2 ⟨_, inferred, bind_eq_ok_iff.2 ⟨values, lowered, rfl⟩⟩, ?_, ?_⟩
  · exact Sections.append_nil _
  · refine ⟨_, congrArg (fun body => [Step.run (.block _ body)]) ?_⟩
    -- the vectors and the values are in the same order
    rw [projectionArrays, List.zipIdx_map, List.map_map, List.map_map, zip_map_zipIdx,
      List.map_map, assignColumns,
      List.zipIdx_map, List.map_map]
    rfl

end

/-! ## Nodes -/

namespace Plan

variable {plan : Plan}

/-- Every position of a well-typed tree that a node unfolds to is a node that unfolds to a
well-typed tree. -/
theorem Unfolds.exists_of_mem_positions {k j : Nat} {tree : PlanTree}
    (unfolds : plan.Unfolds k tree) (typed : tree.WellTyped) (member : j ∈ tree.positions) :
    ∃ part, plan.Unfolds j part ∧ part.WellTyped := by
  -- a position is that of the node itself or lies in one of its inputs
  induction unfolds with
  | scan found =>
    obtain rfl := List.mem_singleton.1 member
    exact ⟨_, .scan found, typed⟩
  | filter found unfolds ih =>
    rcases List.mem_cons.1 member with rfl | member
    · exact ⟨_, .filter found unfolds, typed⟩
    · exact ih typed.1 member
  | project found unfolds ih =>
    rcases List.mem_cons.1 member with rfl | member
    · exact ⟨_, .project found unfolds, typed⟩
    · exact ih typed.1 member
  | join found unfoldsLeft unfoldsRight ihLeft ihRight =>
    rcases List.mem_cons.1 member with rfl | member
    · exact ⟨_, .join found unfoldsLeft unfoldsRight, typed⟩
    rcases List.mem_append.1 member with member | member
    · exact ihLeft typed.1 member
    · exact ihRight typed.2.1 member
  | aggregate found unfolds ih =>
    rcases List.mem_cons.1 member with rfl | member
    · exact ⟨_, .aggregate found unfolds, typed⟩
    · exact ih typed.1 member

/-- Every node of a plan unfolds to a well-typed tree. -/
theorem exists_unfolds (plan : Plan) {k : Nat} (bound : k < plan.nodes.length) :
    ∃ tree, plan.Unfolds k tree ∧ tree.WellTyped :=
  plan.unfolds_tree.exists_of_mem_positions plan.wellTyped_tree
    (plan.positions_tree_perm.mem_iff.2 (List.mem_range.2 bound))

/-- The expressions of a projection have the types of its schema over those of its input. -/
theorem infer_of_project (plan : Plan) {k : Nat} {input : UInt32} {expressions : List Expr}
    (found : plan.nodes[k]? = some (.project input expressions)) :
    List.Forall₂ (fun e type => e.infer (plan.schema input.toNat) = .ok type) expressions
      (plan.schema k) := by
  obtain ⟨tree, unfolds, typed⟩ := plan.exists_unfolds (List.getElem?_eq_some_iff.1 found).1
  cases unfolds with
  | project found' unfolds =>
    cases found.symm.trans found'
    rw [← unfolds.schema_eq]
    exact typed.2
  | _ found' => cases found.symm.trans found'

variable (plan) (checked simd : Bool)

/-- Whatever the program declares by the types of a plan is given values of these types. -/
structure TypedThroughout : Prop where
  /-- Every node hands rows on that have the types of its schema. -/
  rows : ∀ k < plan.nodes.length,
    (plan.produceRows checked k).HandsOn (fun row => row.map Value.type) (plan.schema k)
  /-- Every node hands batches on that have the types of its schema. -/
  batches : ∀ k < plan.nodes.length,
    (plan.produceBatches checked simd k).HandsOn Batch.types (plan.schema k)
  /-- The columns of a projection are declared by the types of its schema, and the values that they
  are given have these types. -/
  declaredColumns : ∀ k input expressions,
    plan.nodes[k]? = some (.project input expressions) →
    ∀ row : List Value, row.map Value.type = plan.schema input.toNat →
      ∃ values next, Expr.lowerEach checked row expressions = .ok values ∧
        values.map Value.type = plan.schema k ∧
        RowPipeline.project (.start row) checked ⟨k, plan.schema k⟩ expressions = .ok next ∧
        next.context = .enter .bare ::
          Context.runAll (RowPipeline.declareColumns k (plan.schema k) (values.map Value.code))
  /-- The same is so for the vectors of a projection of batches. -/
  assignedColumns : ∀ k input expressions,
    plan.nodes[k]? = some (.project input expressions) →
    ∀ batch : Batch, batch.types = plan.schema input.toNat →
      ∃ values next,
        Expr.lowerEach checked (batch.row (.ofNode .projection k (some "i"))) expressions =
          .ok values ∧
        values.map Value.type = plan.schema k ∧
        BatchPipeline.project (.start batch) checked simd ⟨k, plan.schema k⟩
          (plan.schema input.toNat) expressions = .ok next ∧
        next.sections = BatchPipeline.projectionSections k (plan.schema k) ∧
        ∃ head, next.context =
          [.run (.block head (BatchPipeline.assignColumns k (values.map Value.code)))]
  /-- The function that prints a row is called with values of the types of its parameters. -/
  printedRow : ∃ sections context before row,
    plan.lowerScalar checked false =
      .ok (sections, Context.fill context (before ++ [RowPrinter.print (row.map Value.code)])) ∧
    row.map Value.type = plan.outputSchema ∧
    ∃ printer ∈ sections.definitions, RowPrinter.IsFor row printer
  /-- So it is for each row of a batch. -/
  printedBatch : ∃ sections context before,
    ∃ batch : Batch, plan.lowerVectorised checked false simd =
      .ok (sections, Context.fill context (before ++
        [batch.loop .resultRow [RowPrinter.print ((batch.row .resultRow).map Value.code)]])) ∧
    batch.types = plan.outputSchema ∧
    ∃ printer ∈ sections.definitions, RowPrinter.IsFor (batch.row .resultRow) printer

/-- Whatever the program of a plan declares by types is given values of these types. -/
theorem typedThroughout : plan.TypedThroughout checked simd where
  rows k bound := by
    obtain ⟨tree, unfolds, typed⟩ := plan.exists_unfolds bound
    obtain ⟨pipeline, lowered, types⟩ := PlanTree.yields_rows checked typed
    exact ⟨_, pipeline, realises_produceRows unfolds lowered,
      types.trans (unfolds.schema_eq plan)⟩
  batches k bound := by
    obtain ⟨tree, unfolds, typed⟩ := plan.exists_unfolds bound
    obtain ⟨pipeline, lowered, types⟩ := PlanTree.yields_batches checked simd typed
    exact ⟨_, pipeline, realises_produceBatches unfolds lowered,
      types.trans (unfolds.schema_eq plan)⟩
  declaredColumns k input expressions found row types :=
    RowPipeline.exists_declareColumns checked k types (plan.infer_of_project found)
  assignedColumns k input expressions found batch types :=
    BatchPipeline.exists_assignColumns checked simd k types (plan.infer_of_project found)
  printedRow := by
    -- the printer is made for the schema of the plan, which the rows of its tree have
    obtain ⟨pipeline, lowered, types⟩ := PlanTree.yields_rows checked plan.wellTyped_tree
    have types : pipeline.output.map Value.type = plan.outputSchema :=
      types.trans (plan.unfolds_tree.schema_eq plan)
    refine ⟨_, pipeline.context, _, pipeline.output,
      bind_eq_ok_iff.2 ⟨pipeline, lowered, rfl⟩, types, RowPrinter.definition plan.outputSchema, ?_,
      types ▸ RowPrinter.isFor_definition _⟩
    exact List.mem_append_left _ (List.mem_append_right _ List.mem_cons_self)
  printedBatch := by
    obtain ⟨pipeline, lowered, types⟩ := PlanTree.yields_batches checked simd plan.wellTyped_tree
    have types : pipeline.output.types = plan.outputSchema :=
      types.trans (plan.unfolds_tree.schema_eq plan)
    refine ⟨_, pipeline.context, _, pipeline.output,
      bind_eq_ok_iff.2 ⟨pipeline, lowered, rfl⟩, types, RowPrinter.definition plan.outputSchema, ?_,
      ?_⟩
    · exact List.mem_append_left _ (List.mem_append_right _ List.mem_cons_self)
    · rw [← types, Batch.types, ← Batch.row_types _ .resultRow]
      exact RowPrinter.isFor_definition _

/-- Lowering agrees with validation. An expression that has a type over the types of some values is
lowered to a value of this type, with checked divisions and without; and whatever the program of a
plan declares by types is given values of these types, in both stages. -/
theorem lower_infer_and_typedThroughout :
    (∀ (e : Expr) (types : Schema) (type : DataType), e.infer types = .ok type →
      ∀ (checked : Bool) (row : List Value), row.map Value.type = types →
        ∃ value, e.lower checked row = .ok value ∧ value.type = type) ∧
      ∀ (plan : Plan) (checked simd : Bool), plan.TypedThroughout checked simd := by
  refine ⟨?_, typedThroughout⟩
  rintro e types type typed checked row rfl
  exact Expr.yields_lower checked typed

/-- A date less an integer quotient is a date, and so it is handed on in the plan of orders by name.
-/
theorem lower_infer_and_typedThroughout_ordersByName :
    (Expr.binary .sub (.column 0) (.binary .div (.column 1) (.int 7))).infer [.date, .int] =
        .ok .date ∧
      (∃ value, (Expr.binary .sub (.column 0) (.binary .div (.column 1) (.int 7))).lower true
        [⟨"start", .date⟩, ⟨"days", .int⟩] = .ok value ∧ value.type = .date) ∧
      ordersByName.TypedThroughout true true := by
  have typed : (Expr.binary .sub (.column 0) (.binary .div (.column 1) (.int 7))).infer
      [.date, .int] = .ok .date := by rfl
  have ⟨lowered, declared⟩ := lower_infer_and_typedThroughout
  exact ⟨typed, lowered _ _ _ typed true _ rfl, declared ordersByName true true⟩

end Plan

end PlanCompiler
