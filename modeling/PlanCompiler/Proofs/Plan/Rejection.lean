import PlanCompiler.Proofs.Plan.Text.Numbers
import PlanCompiler.Proofs.Plan.Text.RoundTrip
import PlanCompiler.Proofs.Plan.Wire.RoundTrip

/-!
# Where an invalid plan is rejected

Both formats can hold nodes that are no plan. Validation names one of the nodes. The two readers
keep a table of where each node stands, so that they report the fault of that node at its tag byte
or on its line.

## Main definitions

* `Wire.tagOffset`: where a node starts in the encoding of some nodes;
* `Plan.NodesArePrintable`: the text format can express some nodes.

## Main results

* `lt_length_of_validate_eq_error`: the node at fault is one of the nodes;
* `lt_length_and_ne_of_validate_eq_error`: and the fault is not that there are none;
* `Plan.decode_encodeNodes_eq_error`: the tag byte of the node at fault;
* `Plan.parse_printNodes_eq_error`: the line of the node at fault;
* `Plan.rejected_at_node`: both readers at once.
-/

namespace PlanCompiler

/-! ## The node at fault -/

/-- A missing column is not reported as a plan without nodes. -/
theorem Schema.ends_column (schema : Schema) (role : ColumnRole) (column : UInt32) :
    Ends (schema.column role column) (fun _ => True) (· ≠ .noNodes) := by
  unfold Schema.column
  split
  · exact True.intro
  · exact NodeFault.noConfusion

/-- An ill-typed expression is not reported as a plan without nodes. -/
theorem Expr.ends_typeInPlan (schema : Schema) (e : Expr) :
    Ends (e.typeInPlan schema) (fun _ => True) (· ≠ .noNodes) := by
  unfold Expr.typeInPlan
  split
  · exact NodeFault.noConfusion
  · exact Ends.trivial.mapError fun _ _ => NodeFault.noConfusion

/-- An ill-typed aggregate is not reported as a plan without nodes. -/
theorem Aggregate.ends_resultType (schema : Schema) (aggregate : Aggregate) :
    Ends (aggregate.resultType schema) (fun _ => True) (· ≠ .noNodes) := by
  cases aggregate with
  | count => exact True.intro
  | sum column =>
    refine (schema.ends_column .sum column).bind fun type _ => ?_
    split
    · exact True.intro
    · exact NodeFault.noConfusion
  | min column | max column =>
    refine (schema.ends_column .extreme column).bind fun type _ => ?_
    split
    · exact NodeFault.noConfusion
    · exact True.intro

/-- Whatever is wrong with a node, there is one. -/
theorem Node.ends_resolve (earlier : List Schema) (node : Node) :
    Ends (node.resolve earlier) (fun _ => True) (· ≠ .noNodes) := by
  -- each check has a fault of its own, and none of them is that there are no nodes
  cases node with
  | scan table columns =>
    rw [resolve]
    split
    · exact NodeFault.noConfusion
    · split
      · exact NodeFault.noConfusion
      · refine Ends.mapM fun column _ => ?_
        split
        · exact NodeFault.noConfusion
        · exact True.intro
  | filter input predicate =>
    refine (predicate.ends_typeInPlan _).bind fun type _ => ?_
    split
    · exact True.intro
    · exact NodeFault.noConfusion
  | project input expressions =>
    rw [resolve]
    split
    · exact NodeFault.noConfusion
    · exact Ends.mapM fun e _ => e.ends_typeInPlan _
  | join left right leftKey rightKey =>
    rw [resolve]
    split
    · exact NodeFault.noConfusion
    · refine (Schema.ends_column _ _ _).bind fun leftType _ => ?_
      refine (Schema.ends_column _ _ _).bind fun rightType _ => ?_
      split
      · exact True.intro
      · exact NodeFault.noConfusion
  | aggregate input groupBy aggregates =>
    rw [resolve]
    split
    · exact NodeFault.noConfusion
    · refine (Ends.mapM fun column _ => Schema.ends_column _ _ _).bind fun _ _ => ?_
      exact (Ends.mapM fun aggregate _ => aggregate.ends_resultType _).bind fun _ _ => True.intro

/-- A wrong input is not reported as a plan without nodes. -/
theorem Node.ends_checkInputs (position : Nat) (node : Node) :
    Ends (node.checkInputs position) (fun _ => True) (· ≠ .noNodes) := by
  unfold checkInputs
  split
  · exact NodeFault.noConfusion
  · exact True.intro

/-- What is reported of some nodes is reported of one of them. -/
theorem ends_resolveAll (earlier : List Schema) (nodes : List Node) :
    Ends (resolveAll earlier nodes) (fun _ => True) fun error =>
      error.node < earlier.length + nodes.length ∧ error.fault ≠ .noNodes := by
  induction nodes generalizing earlier with
  | nil => exact True.intro
  | cons node rest ih =>
    have here (fault : NodeFault) (other : fault ≠ .noNodes) :
        (ValidationError.mk earlier.length fault).node < earlier.length + (node :: rest).length ∧
          fault ≠ .noNodes :=
      ⟨Nat.lt_add_of_pos_right (Nat.succ_pos _), other⟩
    refine ((node.ends_checkInputs _).mapError here).bind fun _ _ => ?_
    refine ((node.ends_resolve _).mapError here).bind fun schema _ => ?_
    have later := ih (earlier ++ [schema])
    rw [List.length_append, List.length_singleton, Nat.add_assoc, Nat.add_comm 1] at later
    exact later

/-- What is reported of the consumers is reported of one of the nodes. -/
theorem ends_checkConsumers (nodes : List Node) :
    Ends (checkConsumers nodes) (fun _ => True) fun error =>
      error.node < nodes.length ∧ error.fault ≠ .noNodes := by
  refine Ends.forM fun position member => ?_
  have inside := List.mem_range.1 member
  dsimp only
  split <;> split <;> first | exact True.intro | exact ⟨inside, NodeFault.noConfusion⟩

/-- Validation reports a fault of one of the nodes, if there are any. -/
theorem lt_length_and_ne_of_validate_eq_error {nodes : List Node} {error : ValidationError}
    (nonempty : nodes ≠ []) (invalid : validate nodes = .error error) :
    error.node < nodes.length ∧ error.fault ≠ .noNodes := by
  have ends : Ends (validate nodes) (fun _ => True) fun error =>
      error.node < nodes.length ∧ error.fault ≠ .noNodes := by
    rw [validate, if_neg (by simpa using nonempty)]
    have resolved := ends_resolveAll [] nodes
    rw [List.length_nil, Nat.zero_add] at resolved
    exact resolved.bind fun _ _ => (ends_checkConsumers nodes).bind fun _ _ => True.intro
  rw [invalid] at ends
  exact ends

/-- Validation reports one of the nodes, if there are any. -/
theorem lt_length_of_validate_eq_error {nodes : List Node} {error : ValidationError}
    (nonempty : nodes ≠ []) (invalid : validate nodes = .error error) :
    error.node < nodes.length :=
  (lt_length_and_ne_of_validate_eq_error nonempty invalid).1

namespace Plan

/-- A plan is refused exactly with what the validation reports. -/
theorem ofNodes_eq_error_iff {database : String} {nodes : List Node} {error : ValidationError} :
    Plan.ofNodes database nodes = .error error ↔ validate nodes = .error error := by
  rw [Plan.ofNodes]
  split <;> simp_all

end Plan

/-! ## Binary plans -/

namespace Wire

/-- Position of the tag byte of a node in the encoding of some nodes. -/
def tagOffset (database : String) (nodes : List Node) (position : Nat) : Nat :=
  (header database nodes.length).length + ((nodes.take position).flatMap Node.encode).length

/-- The tag of a node stands at the offset where the node starts. -/
theorem getElem?_tagOffset {database : String} {nodes : List Node} {position : Nat} {node : Node}
    (found : nodes[position]? = some node) :
    (encodeNodes database nodes)[tagOffset database nodes position]? = some node.tag := by
  obtain ⟨inside, rfl⟩ := List.getElem?_eq_some_iff.1 found
  have split : nodes.flatMap Node.encode = (nodes.take position).flatMap Node.encode ++
      (nodes[position].encode ++ (nodes.drop (position + 1)).flatMap Node.encode) := by
    rw [← List.flatMap_cons, ← List.flatMap_append, ← List.drop_eq_getElem_cons inside,
      List.take_append_drop]
  rw [encodeNodes, tagOffset, List.getElem?_append_right (Nat.le_add_right _ _),
    Nat.add_sub_cancel_left, split, List.getElem?_append_right (Nat.le_refl _), Nat.sub_self]
  rfl

/-- The table of places has the position of every tag byte. -/
theorem getD_placedFrom {nodes : List Node} {position : Nat} (inside : position < nodes.length)
    (start : Nat) :
    ((placedFrom start nodes).map (·.1)).getD position 0 =
      start + ((nodes.take position).flatMap Node.encode).length := by
  induction nodes generalizing start position with
  | nil => exact absurd inside (Nat.not_lt_zero _)
  | cons node rest ih =>
    cases position with
    | zero => rfl
    | succ position =>
      rw [placedFrom, List.map_cons, List.getD_cons_succ, ih (Nat.lt_of_succ_lt_succ inside),
        List.take_succ_cons, List.flatMap_cons, List.length_append, Nat.add_assoc]

/-- The reader finds the nodes that were written, with their places. -/
theorem exists_nodes_encodeNodes {database : String} {nodes : List Node}
    (form : HasForm database nodes) :
    ∃ c, Reader.nodes (Cursor.start (encodeNodes database nodes)) =
      .ok ((database, placedFrom (header database nodes.length).length nodes), c) := by
  refine ⟨(Cursor.start (encodeNodes database nodes)).advance (encodeNodes database nodes).length,
    nodes_start_eq_ok_iff.2 ?_⟩
  rw [map_snd_placedFrom, length_placedFrom]
  exact ⟨form, rfl, rfl, rfl⟩

end Wire

/-! ## Text plans -/

/-- The text format has the limits of the binary format, apart from those of lengths, and does not
hold every table name. -/
theorem Node.hasTextForm_of_hasWireForm {node : Node} (form : node.HasWireForm)
    (named : ∀ table columns, node = .scan table columns → isTableName table = true) :
    node.HasTextForm := by
  have limits {e : Expr} (operand : e.HasWireForm Expr.maxDepth) : e.HasTextForm :=
    ⟨operand.1, fun part member => (operand.2 part member).2⟩
  obtain ⟨-, operands, -⟩ := form
  cases node with
  | scan table columns => exact ⟨named table columns rfl, operands⟩
  | filter input predicate => exact limits operands
  | project input expressions => exact fun e member => limits (operands e member)
  | join | aggregate => trivial

/-- A draft whose nodes stand on successive lines. -/
theorem Draft.finish_eq_error {database : Option String} {nodes : List Node} {number : Nat}
    {error : ValidationError} (lines : Nat) (nonempty : nodes ≠ [])
    (invalid : validate nodes = .error error) (inside : error.node < nodes.length) :
    Draft.finish { database, nodes := (nodes.zipIdx number).map Prod.swap } lines =
      .error { line := error.node + number, fault := .invalid error.fault } := by
  have numbers : ((nodes.zipIdx number).map Prod.swap).map (·.1) =
      List.range' number nodes.length := by
    rw [List.map_map]
    exact List.zipIdx_map_snd number nodes
  have filled : (nodes.zipIdx number).map Prod.swap ≠ [] := by simpa using nonempty
  rw [finish, if_neg filled, map_snd_swap_zipIdx, Plan.ofNodes_eq_error_iff.2 invalid, numbers]
  simp [Except.mapError, inside, Nat.add_comm]

namespace Plan

section

variable {database : String} {nodes : List Node} {error : ValidationError}

/-- The reader of binary plans reports the tag byte of the node at fault. -/
theorem decode_encodeNodes_eq_error (invalid : validate nodes = .error error)
    (form : Wire.HasForm database nodes) :
    Plan.decode (Wire.encodeNodes database nodes) =
      .error
        { offset := Wire.tagOffset database nodes error.node
          fault := .invalid error.fault } := by
  obtain ⟨c, read⟩ := Wire.exists_nodes_encodeNodes form
  have inside := lt_length_of_validate_eq_error form.nonempty invalid
  rw [decode, StateT.run, read]
  show (Plan.ofNodes database ((Wire.placedFrom _ nodes).map (·.2))).mapError _ = _
  rw [Wire.map_snd_placedFrom, ofNodes_eq_error_iff.2 invalid, Wire.tagOffset,
    ← Wire.getD_placedFrom inside]
  rfl

/-- The text format can express a directory and some nodes that the binary format can hold. -/
structure NodesArePrintable (database : String) (nodes : List Node) : Prop where
  /-- The directory is not empty and has no blank at either end. -/
  trimmed : Text.IsTrimmed database.toList
  /-- The directory has no line feed. -/
  line : '\n' ∉ database.toList
  /-- The tables have names of ASCII letters, digits and underscores. -/
  tables : ∀ node ∈ nodes, ∀ table columns, node = .scan table columns → isTableName table = true
  /-- No text literal and no pattern has a line feed. -/
  texts : ∀ node ∈ nodes, ∀ part ∈ node.parts, part.IsOnOneLine
  /-- The date literals lie in the years 0 to 9999. -/
  dates : ∀ node ∈ nodes, ∀ part ∈ node.parts, part.HasShortYear

/-- The reader of text plans reports the line of the node at fault. -/
theorem parse_printNodes_eq_error {text : String} (invalid : validate nodes = .error error)
    (nonempty : nodes ≠ []) (forms : ∀ node ∈ nodes, node.HasTextForm)
    (printable : NodesArePrintable database nodes)
    (printed : printNodes database nodes = .ok text) :
    Plan.parse text = .error { line := error.node + 2, fault := .invalid error.fault } := by
  obtain ⟨trimmed, line, -, texts, dates⟩ := printable
  -- a NaN loses its payload, but the nodes that are read have the same lines and the same fault
  let twins := nodes.map Node.asRead
  have same : printNodes database twins = .ok text := by
    rw [printNodes, Node.printLines_map_asRead]
    exact printed
  have twinForms : ∀ node ∈ twins, node.HasTextForm :=
    List.forall_mem_map.2 fun node member => node.hasTextForm_asRead.2 (forms node member)
  have twinTexts : ∀ node ∈ twins, ∀ part ∈ node.parts, part.IsOnOneLine := by
    simpa only [twins, Node.forall_parts_map_asRead, Expr.isOnOneLine_asRead] using texts
  have twinDates : ∀ node ∈ twins, ∀ part ∈ node.parts, part.HasShortYear := by
    simpa only [twins, Node.forall_parts_map_asRead, Expr.hasShortYear_asRead] using dates
  have twinNumbers : ∀ node ∈ twins, ∀ part ∈ node.parts, part.IsReadBack :=
    Node.forall_parts_map_asRead.2 fun _ _ part _ => part.isReadBack_asRead
  have read := (addLines_eq_ok_iff_of_printNodes line twinForms twinTexts same trimmed
    twinNumbers).2 ⟨twinDates, rfl⟩
  have inside : error.node < nodes.length := lt_length_of_validate_eq_error nonempty invalid
  rw [parse, read]
  exact Draft.finish_eq_error _ (by simpa [twins] using nonempty)
    ((validate_map_asRead nodes).trans invalid) (by simpa [twins] using inside)

/-- What validation rejects, both readers reject for the same reason: the one at the tag byte of the
node at fault, the other on its line. -/
theorem rejected_at_node (rejected : Plan.ofNodes database nodes = .error error)
    (form : Wire.HasForm database nodes) :
    ∃ node, nodes[error.node]? = some node ∧
      (Wire.encodeNodes database nodes)[Wire.tagOffset database nodes error.node]? = some node.tag ∧
      Plan.decode (Wire.encodeNodes database nodes) =
        .error
          { offset := Wire.tagOffset database nodes error.node
            fault := .invalid error.fault } ∧
      (NodesArePrintable database nodes → ∃ text line, printNodes database nodes = .ok text ∧
        node.print = .ok line ∧ (Text.lines text.toList)[error.node + 1]? = some line.toList ∧
        Plan.parse text = .error { line := error.node + 2, fault := .invalid error.fault }) := by
  have invalid := ofNodes_eq_error_iff.1 rejected
  have inside := lt_length_of_validate_eq_error form.nonempty invalid
  have found := List.getElem?_eq_getElem inside
  refine ⟨nodes[error.node], found, Wire.getElem?_tagOffset found,
    decode_encodeNodes_eq_error invalid form, fun printable => ?_⟩
  -- in print, the line of the node is found below the line of the database
  have forms : ∀ node ∈ nodes, node.HasTextForm := fun node member =>
    Node.hasTextForm_of_hasWireForm (form.nodes node member) (printable.tables node member)
  obtain ⟨others, nodesPrinted⟩ := Node.exists_printLines printable.dates
  have printed : printNodes database nodes = .ok ("database " ++ database ++ "\n" ++ others) := by
    rw [printNodes, nodesPrinted]
    rfl
  obtain ⟨lines, each, divided⟩ :=
    exists_lines_of_printNodes printable.line forms printable.texts printed
  have reached : error.node < lines.length := each.length_eq ▸ inside
  refine ⟨_, lines[error.node], printed, each.get inside reached, ?_,
    parse_printNodes_eq_error invalid form.nonempty forms printable printed⟩
  rw [divided, List.getElem?_cons_succ, List.getElem?_map, List.getElem?_eq_getElem reached]
  rfl

end

/-- Nodes of which one is not read by any other. -/
def unreadTable : List Node := largeOrders.nodes ++ [.scan "items" [⟨0, .int⟩]]

/-- The format holds the plan with an unread table. -/
theorem hasForm_unreadTable : Wire.HasForm "/data" unreadTable :=
  have fits : largeOrders.FitsWords := by constructor <;> decide
  { database := by decide
    count := by decide
    nonempty := by decide
    nodes := List.forall_mem_append.2 ⟨(largeOrders.hasForm fits).nodes,
      List.forall_mem_singleton.2 ⟨by decide, by simp [Node.HasWireOperands], by decide⟩⟩ }

/-- That a node is not read is found only after all nodes have a row type. -/
theorem rejected_at_node_unreadTable :
    Plan.ofNodes "/data" unreadTable = .error ⟨2, .consumed 0⟩ ∧
      Wire.HasForm "/data" unreadTable ∧ NodesArePrintable "/data" unreadTable ∧
      ∃ text, printNodes "/data" unreadTable = .ok text ∧
        Plan.decode (Wire.encodeNodes "/data" unreadTable) =
          .error ⟨Wire.tagOffset "/data" unreadTable 2, .invalid (.consumed 0)⟩ ∧
        Plan.parse text = .error ⟨4, .invalid (.consumed 0)⟩ := by
  have rejected : Plan.ofNodes "/data" unreadTable = .error ⟨2, .consumed 0⟩ :=
    ofNodes_eq_error_iff.2 rfl
  have form := hasForm_unreadTable
  have printable : NodesArePrintable "/data" unreadTable :=
    { trimmed := by decide
      line := by decide
      tables := by simp [unreadTable, largeOrders]; decide
      texts := by simp [unreadTable, largeOrders, Node.parts, Expr.parts, Expr.IsOnOneLine]
      dates := by decide }
  obtain ⟨_, -, -, decoded, parsed⟩ := rejected_at_node rejected form
  obtain ⟨text, _, printed, -, -, parsed⟩ := parsed printable
  exact ⟨rejected, form, printable, text, printed, decoded, parsed⟩

end Plan

end PlanCompiler
