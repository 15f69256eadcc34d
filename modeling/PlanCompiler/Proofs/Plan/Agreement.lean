import PlanCompiler.Plan.Basic
import PlanCompiler.Proofs.Expr.Parts
import PlanCompiler.Proofs.Plan.Validity

/-!
# Agreement of plans

Agreement compares float literals as numbers. It is equality part by part apart from float
literals, and everything without a NaN agrees with itself, but nothing with a NaN agrees with
anything.

## Main definitions

* `Expr.isNaN`: a float literal is not a number.

## Main results

* `Expr.forall₂_parts_of_agrees`: expressions that agree have parts that agree;
* `Node.exists_part_of_agrees`: so do nodes;
* `Plan.agrees_self`: a plan without NaN agrees with itself.
-/

namespace PlanCompiler

namespace Expr

attribute [local simp] agrees agreesAll

/-- A float literal is not a number. -/
def isNaN : Expr → Bool
  | .float value => value.isNaN
  | _ => false

/-- An expression that agrees with any other is a number, if it is a float literal. -/
theorem isNaN_eq_false_of_agrees {a b : Expr} (h : a.agrees b = true) : a.isNaN = false := by
  cases a with
  | float value =>
    cases b with
    | float other =>
      rw [agrees, Binary64.agrees, decide_eq_true_iff] at h
      have number : value.isNaN = false := by simpa using h.1
      exact number
    | _ => simp at h
  | _ => rfl

/-- Operands that agree have parts that agree. -/
theorem forall₂_parts_of_agreesAll {operands others : List Expr}
    (h : ∀ operand ∈ operands, ∀ other, operand.agrees other = true →
      List.Forall₂ (fun p q => p.agrees q = true) operand.parts other.parts)
    (agree : agreesAll operands others = true) :
    List.Forall₂ (fun p q => p.agrees q = true)
      (operands.flatMap parts) (others.flatMap parts) := by
  -- lists of different length do not agree
  induction operands generalizing others with
  | nil =>
    cases others with
    | nil => exact .nil
    | cons other rest => simp at agree
  | cons first rest ih =>
    cases others with
    | nil => simp at agree
    | cons other others =>
      rw [agreesAll, decide_eq_true_iff] at agree
      rw [List.flatMap_cons, List.flatMap_cons]
      exact List.rel_append (h first List.mem_cons_self other agree.1)
        (ih (fun operand member => h operand (List.mem_cons_of_mem _ member)) agree.2)

/-- Expressions that agree have parts that agree, one by one. -/
theorem forall₂_parts_of_agrees {a : Expr} : ∀ {b : Expr}, a.agrees b = true →
    List.Forall₂ (fun p q => p.agrees q = true) a.parts b.parts := by
  induction a with
  | column | int | float | date | text =>
    intro b h
    -- a literal or a column is its only part
    cases b <;> first | exact .cons h .nil | simp at h
  | binary op lhs rhs ihl ihr =>
    intro b h
    cases b with
    | binary op' lhs' rhs' =>
      refine .cons h ?_
      rw [agrees, decide_eq_true_iff] at h
      exact List.rel_append (ihl h.2.1) (ihr h.2.2)
    | _ => simp at h
  | junction connective operands ih =>
    intro b h
    cases b with
    | junction connective' operands' =>
      refine .cons h ?_
      rw [agrees, decide_eq_true_iff] at h
      rw [partsOfAll_eq_flatMap, partsOfAll_eq_flatMap]
      exact forall₂_parts_of_agreesAll
        (fun operand member other agree => ih operand member agree) h.2
    | _ => simp at h
  | not operand ih =>
    intro b h
    cases b with
    | not operand' => exact .cons h (ih (by rwa [agrees] at h))
    | _ => simp at h
  | case condition consequent alternative ihc iha ihb =>
    intro b h
    cases b with
    | case condition' consequent' alternative' =>
      refine .cons h ?_
      rw [agrees, decide_eq_true_iff] at h
      exact List.rel_append (List.rel_append (ihc h.1) (iha h.2.1)) (ihb h.2.2)
    | _ => simp at h
  | like value pattern ih =>
    intro b h
    cases b with
    | like value' pattern' =>
      refine .cons h ?_
      rw [agrees, decide_eq_true_iff] at h
      exact ih h.1
    | _ => simp at h

/-- Operands agree with themselves if each of them does. -/
theorem agreesAll_self {operands : List Expr}
    (h : ∀ operand ∈ operands, operand.agrees operand = true) :
    agreesAll operands operands = true := by
  induction operands with
  | nil => rfl
  | cons first rest ih =>
    rw [agreesAll, decide_eq_true_iff]
    exact ⟨h first List.mem_cons_self,
      ih fun operand member => h operand (List.mem_cons_of_mem _ member)⟩

/-- An expression without NaN agrees with itself. -/
theorem agrees_self {e : Expr} (h : ∀ part ∈ e.parts, part.isNaN = false) : e.agrees e = true := by
  induction e with
  | column | int | date | text => simp
  | float value =>
    -- this is the only case in which something does not agree with itself
    have number : value.isNaN = false := h _ List.mem_cons_self
    simp [Binary64.agrees, number]
  | binary op lhs rhs ihl ihr =>
    obtain ⟨-, left, right⟩ := forall_parts_binary.1 h
    simp [ihl left, ihr right]
  | junction connective operands ih =>
    obtain ⟨-, inside⟩ := forall_parts_junction.1 h
    have each := agreesAll_self fun operand member => ih operand member (inside operand member)
    simp [each]
  | not operand ih => simp [ih (forall_parts_not.1 h).2]
  | case condition consequent alternative ihc iha ihb =>
    obtain ⟨-, first, second, third⟩ := forall_parts_case.1 h
    simp [ihc first, iha second, ihb third]
  | like value pattern ih => simp [ih (forall_parts_like.1 h).2]

end Expr

namespace Node

attribute [local simp] agrees

/-- Nodes that agree have parts that agree, one by one. -/
theorem forall₂_parts_of_agrees {a b : Node} (h : a.agrees b = true) :
    List.Forall₂ (fun p q => p.agrees q = true) a.parts b.parts := by
  cases a with
  | filter input e =>
    cases b with
    | filter input' e' =>
      rw [agrees, decide_eq_true_iff] at h
      exact Expr.forall₂_parts_of_agrees h.2
    | _ => simp at h
  | project input es =>
    cases b with
    | project input' es' =>
      rw [agrees, decide_eq_true_iff] at h
      exact Expr.forall₂_parts_of_agreesAll (fun e _ other => Expr.forall₂_parts_of_agrees) h.2
    | _ => simp at h
  -- the other nodes have no parts
  | scan | join | aggregate =>
    cases b <;> first | exact .nil | simp at h

/-- A node without NaN agrees with itself. -/
theorem agrees_self {node : Node} (h : ∀ part ∈ node.parts, part.isNaN = false) :
    node.agrees node = true := by
  cases node with
  | filter input e => simp [Expr.agrees_self h]
  | project input es =>
    have each := Expr.agreesAll_self fun e member => Expr.agrees_self fun part inside =>
      h part (List.mem_flatMap.2 ⟨e, member, inside⟩)
    simp [each]
  | scan | join | aggregate => simp

end Node

namespace Plan

/-- The nodes of plans that agree do so one by one. -/
theorem forall₂_nodes_of_agrees {p q : Plan} (h : p.agrees q = true) :
    List.Forall₂ (fun a b => a.agrees b = true) p.nodes q.nodes := by
  rw [agrees, decide_eq_true_iff] at h
  obtain ⟨-, length, each, -⟩ := h
  -- the lengths are equal, so that the pairs are all there are
  refine List.forall₂_iff_zip.2 ⟨length, fun member => ?_⟩
  exact List.all_eq_true.1 each _ member

/-- A part of a plan agrees with a part of every plan that agrees with it. -/
theorem exists_part_of_agrees {p q : Plan} (h : p.agrees q = true) {node : Node}
    (member : node ∈ p.nodes) {part : Expr} (inside : part ∈ node.parts) :
    ∃ other ∈ q.nodes, ∃ twin ∈ other.parts, part.agrees twin = true := by
  obtain ⟨other, found, agree⟩ := exists_of_mem_of_forall₂ (forall₂_nodes_of_agrees h) member
  exact ⟨other, found, exists_of_mem_of_forall₂ (Node.forall₂_parts_of_agrees agree) inside⟩

/-- A plan without NaN agrees with itself. -/
theorem agrees_self {plan : Plan}
    (h : ∀ node ∈ plan.nodes, ∀ part ∈ node.parts, part.isNaN = false) :
    plan.agrees plan = true := by
  have each : List.Forall₂ (fun a b => a.agrees b = true) plan.nodes plan.nodes :=
    List.forall₂_same.2 fun node member => Node.agrees_self (h node member)
  rw [agrees, decide_eq_true_iff]
  exact ⟨rfl, rfl, List.all_eq_true.2 fun pair => (List.forall₂_iff_zip.1 each).2, rfl⟩

end Plan

end PlanCompiler
