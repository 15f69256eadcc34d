import PlanCompiler.Lowering.Groups
import PlanCompiler.Proofs.Code.Reading
import PlanCompiler.Proofs.Lowering.Plain
import PlanCompiler.Proofs.Lowering.Sections.Operators

/-!
# Scopes of aggregations

Finding the group of a row and taking the row into the accumulators only use the variables of the
aggregation at the top of the program, the group they declare, and the values of the row at hand.

## Main definitions

* `Groups.IsVisible`: the variables of an aggregation are declared.

## Main results

* `Groups.gives_reads_find`, `Groups.gives_reads_accumulate`: the statements for a row;
* `Groups.isPlain_groupRow`, `Groups.isPlain_totals`: the rows that an aggregation yields.
-/

namespace PlanCompiler

open Code Scope

namespace Groups

variable {scopes : Names} {groups : Groups}

/-- The variables of an aggregation at the top of the program are declared. -/
structure IsVisible (groups : Groups) (scopes : Names) : Prop where
  record : groups.isGrouped = true → scopes.Has groups.record
  rows : groups.countsRows = true → scopes.Has (groups.named "rows")
  accumulator : groups.isGrouped = false → ∀ j < groups.aggregates.length,
    scopes.Has (groups.accumulator j)

/-- What an aggregation declares stays visible below. -/
theorem IsVisible.mono {scopes' : Names} (visible : groups.IsVisible scopes)
    (below : scopes.Below scopes') : groups.IsVisible scopes' :=
  { record := fun grouped => (visible.record grouped).mono below
    rows := fun counts => (visible.rows counts).mono below
    accumulator := fun ungrouped j bound => (visible.accumulator ungrouped j bound).mono below }

/-- An aggregation is visible where all its variables are known. -/
theorem isVisible_of_names (known : ∀ name ∈ groups.sections.names, scopes.Has name) :
    groups.IsVisible scopes := by
  refine ⟨fun grouped => ?_, fun counts => ?_, fun ungrouped j bound => ?_⟩
  · refine known _ ?_
    rw [sections, if_pos grouped]
    exact List.mem_singleton_self _
  · refine known _ ?_
    have ungrouped : groups.isGrouped = false := by
      simp only [countsRows, decide_eq_true_eq, Bool.not_eq_true] at counts
      exact counts.1
    rw [names_sections_ungrouped ungrouped, if_pos counts]
    simp [named]
  · refine known _ ?_
    rw [names_sections_ungrouped ungrouped]
    exact List.mem_append_right _ (Name.mem_numbered_iff.2 ⟨j, bound, rfl⟩)

/-- A variable of an aggregation is one word if its part is. -/
theorem isIdentifier_named (groups : Groups) {part : String} (word : IsIdentifier part) :
    IsIdentifier (groups.named part).text :=
  Name.isIdentifier_ofNode _ _ word

variable {row : List Value} {here : List Name} {outer : Names}

/-- Looking for the group of a row declares the variable for the group. -/
theorem gives_reads_find (recordKnown : Names.Has (here :: outer) groups.record)
    (plain : ∀ value ∈ row, value.IsPlain (here :: outer)) (groupBy : List UInt32)
    {part : String} (word : IsIdentifier part) (fresh : groups.named part ∉ here) :
    Gives (groups.find groupBy row (groups.named part)) fun found =>
      Reads found (here :: outer) ((groups.named part :: here) :: outer) := by
  rw [find]
  refine (Gives.mapM (S := fun key => key.IsPlain (here :: outer)) fun column _ => ?_).bind
    fun keys keysPlain => .ok ?_
  · split
    · rename_i value found
      exact .ok (plain value (List.mem_of_getElem? found))
    · exact .error _
  have targetWord := groups.isIdentifier_named word
  have below := Names.below_declare (groups.named part) here outer
  have target := isPlain_variable (Names.has_declared targetWord here outer)
  have address : ("&" ++ groups.record : Code).IsPlain (here :: outer) :=
    (Fits.start _ |>.code (isPlain_variable recordKnown)).isPlain
  have call := @isPlain_call _ (.groupsFind groups.node) rfl _
    (List.forall_mem_cons.2 ⟨address, keysPlain⟩)
  -- the variable for the group is declared, then assigned what is found, then compared
  refine .cons (.declare rfl targetWord (.start _) fresh) (.cons (.line ?_)
    (.control ?_ (Fits.start _).isPlain))
  · exact (Fits.hole target |>.text _ |>.code (call.mono below) |>.text _).isPlain
  · exact (Fits.start _ |>.code target |>.text _).isPlain

/-- Checking the group that was found is read where the groups are known. -/
theorem reads_checkGroup (checked : Bool) (recordKnown : scopes.Has groups.record) {group : Name}
    (groupKnown : scopes.Has group) : Reads (groups.checkGroup checked group) scopes scopes := by
  have group := isPlain_variable groupKnown
  have count : groups.count.IsPlain scopes :=
    (isPlain_variable recordKnown).member (by decide)
  rw [checkGroup]
  split
  · exact .line (Fits.start _ |>.code group |>.text _ |>.code count |>.text _).isPlain
  · exact .nil

/-- The operand of an aggregate is a value of the row. -/
theorem gives_isPlain_operand (plain : ∀ value ∈ row, value.IsPlain scopes) (column : UInt32) :
    Gives (match row[column.toNat]? with
      | some value => .ok value
      | none => .error (.aggregateColumn column) : Except LoweringError Value)
      (Value.IsPlain scopes) := by
  split
  · rename_i value found
    exact .ok (plain value (List.mem_of_getElem? found))
  · exact .error _

/-- Taking a row into an accumulator declares nothing. -/
theorem gives_reads_accumulate (plain : ∀ value ∈ row, value.IsPlain scopes)
    (aggregate : Aggregate) {accumulator : Code} (accumulatorPlain : accumulator.IsPlain scopes) :
    Gives (accumulate aggregate accumulator row) fun update => Reads update scopes scopes := by
  -- only a count reads no column
  cases aggregate with
  | count => exact .ok (.line (Fits.hole accumulatorPlain |>.text _).isPlain)
  | sum column =>
    refine (gives_isPlain_operand plain column).bind fun value valuePlain => ?_
    split
    · exact .ok (.line (Fits.hole accumulatorPlain |>.text _ |>.code accumulatorPlain |>.text _
        |>.code valuePlain |>.text _).isPlain)
    · exact .ok (.line (Fits.hole accumulatorPlain |>.text _ |>.code valuePlain
        |>.text _).isPlain)
  | min column | max column =>
    refine (gives_isPlain_operand plain column).bind fun value valuePlain =>
      .ok (.control ?_ ?_)
    · exact (Fits.start _ |>.code valuePlain |>.text _ |>.code accumulatorPlain |>.text _).isPlain
    · exact (Fits.hole accumulatorPlain |>.text _ |>.code valuePlain |>.text _).isPlain

/-! ## The rows of an aggregation -/

/-- A slot of a plain group is plain where the groups are known. -/
theorem isPlain_slot (recordKnown : scopes.Has groups.record) {group : Code}
    (groupPlain : group.IsPlain scopes) (j : Nat) : (groups.slot j group).IsPlain scopes :=
  ((isPlain_variable recordKnown).member (isMember_slot j)).element groupPlain

/-- The row of a plain group is plain where the groups are known. -/
theorem isPlain_groupRow (recordKnown : scopes.Has groups.record) {group : Code}
    (groupPlain : group.IsPlain scopes) :
    ∀ value ∈ groups.groupRow group, value.IsPlain scopes := by
  intro value member
  rcases List.mem_append.1 member with member | member
  · obtain ⟨⟨type, k⟩, -, rfl⟩ := List.mem_map.1 member
    exact ((isPlain_variable recordKnown).member (isMember_key k)).element groupPlain
  · obtain ⟨⟨entry, j⟩, -, rfl⟩ := List.mem_map.1 member
    exact isPlain_slot recordKnown groupPlain j

/-- The row of an aggregation without groups is plain where it is visible. -/
theorem isPlain_totals (visible : groups.IsVisible scopes) (ungrouped : groups.isGrouped = false) :
    ∀ value ∈ groups.totals, value.IsPlain scopes := by
  intro value member
  obtain ⟨⟨⟨aggregate, type⟩, j⟩, entry, rfl⟩ := List.mem_map.1 member
  have accumulator := isPlain_variable (visible.accumulator ungrouped j (lt_of_mem_zipIdx entry))
  dsimp only
  split
  · rename_i extreme
    -- a least or greatest value is only taken if there are rows
    have counts : groups.countsRows = true := by
      rw [countsRows, decide_eq_true_iff, List.any_eq_true]
      exact ⟨by simp [ungrouped], _, List.fst_mem_of_mem_zipIdx entry, extreme⟩
    have rows := isPlain_variable (visible.rows counts)
    cases type <;>
      exact (Fits.start _ |>.code rows |>.text _ |>.code accumulator |>.text _ |>.text _
        |>.text _).isPlain
  · exact accumulator

end Groups

end PlanCompiler
