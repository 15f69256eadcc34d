import PlanCompiler.Lowering.Groups
import PlanCompiler.Proofs.Plan.Validity

/-!
# Lowering of aggregations

An aggregation of a plan names columns that its input has and summarises them in ways that their
types allow. On rows with the types of the input, its keys and its summaries are therefore found.

## Main results

* `Groups.of_eq_ok`: the aggregation of a valid node;
* `Groups.yields_find`, `Groups.yields_accumulate`: how it takes in a row;
* `Groups.groupRow_types`, `Groups.totals_types`: the rows that it yields.
-/

namespace PlanCompiler

/-- Positions that a function does not look at. -/
theorem map_zipIdx_eq_map {α β : Type} {f : α × Nat → β} {g : α → β} {xs : List α}
    (same : ∀ x k, f (x, k) = g x) : xs.zipIdx.map f = xs.map g := by
  conv_rhs => rw [← List.zipIdx_map_fst 0 xs, List.map_map]
  exact List.map_congr_left fun (x, k) _ => same x k

/-- The column that an aggregate summarises exists. -/
theorem Aggregate.getElem?_of_resultType {aggregate : Aggregate} {input : Schema} {type : DataType}
    {column : UInt32} (typed : aggregate.resultType input = .ok type)
    (named : aggregate.column? = some column) : ∃ found, input[column.toNat]? = some found := by
  cases aggregate with
  | count => cases named
  | sum | min | max =>
    obtain rfl := Option.some.inj named
    obtain ⟨found, there, -⟩ := bind_eq_ok_iff.1 typed
    exact ⟨found, Schema.column_eq_ok_iff.1 there⟩

namespace Groups

variable {input : Schema} {groupBy : List UInt32} {aggregates : List Aggregate}
  {keys results : Schema}

/-- The aggregation of a node whose group columns and aggregates have types. -/
theorem of_eq_ok (node : Nat)
    (grouped : List.Forall₂ (fun column type => input[column.toNat]? = some type) groupBy keys)
    (summarised : List.Forall₂ (fun aggregate type => aggregate.resultType input = .ok type)
      aggregates results) :
    Groups.of node input groupBy aggregates =
      .ok { node, keys, aggregates := aggregates.zip results } := by
  simp only [Groups.of, bind_eq_ok_iff, mapM_eq_ok_iff]
  -- the types that were inferred for the aggregates are those of the plan
  refine ⟨keys, grouped.imp fun column type found => by rw [found], _, ?_, rfl⟩
  induction summarised with
  | nil => exact .nil
  | cons first _ ih => exact .cons ⟨_, mapError_eq_ok_iff.2 first, rfl⟩ ih

/-- Each aggregate is kept with the type of its results. -/
theorem resultType_of_mem_zip
    (summarised : List.Forall₂ (fun aggregate type => aggregate.resultType input = .ok type)
      aggregates results) :
    ∀ entry ∈ aggregates.zip results, entry.1.resultType input = .ok entry.2 :=
  fun _ member => (List.forall₂_iff_zip.1 summarised).2 member

/-- Related lists have one length, so that pairing them loses nothing. -/
theorem map_snd_zip_of_forall₂ {R : Aggregate → DataType → Prop}
    (related : List.Forall₂ R aggregates results) :
    (aggregates.zip results).map (·.2) = results :=
  List.map_snd_zip (Nat.le_of_eq related.length_eq.symm)

variable {row : List Value}

/-- The group of a row is looked up. -/
theorem yields_find (groups : Groups)
    (grouped : List.Forall₂ (fun column type => (row.map Value.type)[column.toNat]? = some type)
      groupBy keys) (target : Name) :
    Yields (groups.find groupBy row target) fun _ => True := by
  rw [find]
  refine (Yields.mapM (S := fun _ _ => True) fun column member => ?_).bind fun _ _ => .ok trivial
  obtain ⟨type, -, found⟩ := exists_of_mem_of_forall₂ grouped member
  obtain ⟨value, found, -⟩ := Option.map_eq_some_iff.1 (List.getElem?_map ▸ found)
  rw [found]
  exact .ok trivial

/-- A row is taken into an accumulator. -/
theorem yields_accumulate {aggregate : Aggregate} {type : DataType}
    (typed : aggregate.resultType (row.map Value.type) = .ok type) (accumulator : Code) :
    Yields (accumulate aggregate accumulator row) fun _ => True := by
  cases aggregate with
  | count => exact .ok trivial
  | sum column | min column | max column =>
    obtain ⟨found, there⟩ := Aggregate.getElem?_of_resultType typed rfl
    obtain ⟨value, there, -⟩ := Option.map_eq_some_iff.1 (List.getElem?_map ▸ there)
    simp only [accumulate, there]
    refine Yields.bind (Q := fun _ => True) (.ok trivial) fun value _ => ?_
    -- A sum depends on the type of the value.
    first | exact .ok trivial | (split <;> exact .ok trivial)

/-- The row of a group has the types of the keys and the aggregates. -/
theorem groupRow_types (groups : Groups) (group : Code) :
    (groups.groupRow group).map Value.type = groups.keys ++ groups.aggregates.map (·.2) := by
  simp only [groupRow, List.map_append, List.map_map]
  rw [map_zipIdx_eq_map (g := id) fun _ _ => rfl, List.map_id]
  rw [map_zipIdx_eq_map (g := Prod.snd) fun _ _ => rfl]

/-- The row of an aggregation without groups has the types of the aggregates. -/
theorem totals_types (groups : Groups) :
    groups.totals.map Value.type = groups.aggregates.map (·.2) := by
  rw [totals, List.map_map]
  refine map_zipIdx_eq_map fun (aggregate, type) k => ?_
  simp only [Function.comp_apply]
  split <;> rfl

end Groups

end PlanCompiler
