import PlanCompiler.Proofs.Plan.Text.RoundTrip

/-!
# Printing what was read

The reader of text plans is lenient: it takes numbers with a plus sign or with leading zeros, dates
whose parts have any width, and blanks nearly anywhere. What it returns can always be printed, and
the printed text is read back as the same plan, with one exception. A date is accepted by its
length of ten bytes, so that `12345-1-01` is a date; it is printed with two digits for the month,
and that text is too long to be read.

## Main results

* `Plan.exists_print_of_parse`: what was read can be printed;
* `Plan.parse_eq_ok_iff_of_parse_of_print`: which printed texts are read again, and as what;
* `Plan.exists_print_parse_iff_of_parse`: the printed text is a normal form if the years are short.
-/

namespace PlanCompiler

namespace Plan

variable {source text : String} {plan twin : Plan}

/-- A plan that was read has a text: the calendar has all its dates. -/
theorem exists_print_of_parse (read : Plan.parse source = .ok plan) :
    ∃ text, plan.print = .ok text := by
  obtain ⟨others, printed⟩ := Node.exists_printLines_of_isDated fun _ member part inside =>
    (isLegible_of_parse read member part inside).date
  refine ⟨"database " ++ plan.database ++ "\n" ++ others, ?_⟩
  rw [print, printed]
  rfl

/-- Everything but the dates of a plan that was read is printed in a form that is read again. -/
theorem parse_eq_ok_iff_of_parse_of_print (read : Plan.parse source = .ok plan)
    (numbers : ∀ node ∈ plan.nodes, ∀ part ∈ node.parts, part.isNaN = false)
    (printed : plan.print = .ok text) :
    Plan.parse text = .ok twin ↔
      (∀ node ∈ plan.nodes, ∀ part ∈ node.parts, part.HasShortYear) ∧ twin = plan := by
  obtain ⟨trimmed, line⟩ := isTrimmed_of_parse read
  have texts := fun node (member : node ∈ plan.nodes) => isOnOneLine_of_parse read member
  exact parse_eq_ok_iff_of_print printed trimmed line texts numbers

/-- A plan without NaN that was read is printed, and the text is read back as the same plan exactly
if its dates lie in the years 0 to 9999. -/
theorem exists_print_parse_iff_of_parse (read : Plan.parse source = .ok plan)
    (numbers : ∀ node ∈ plan.nodes, ∀ part ∈ node.parts, part.isNaN = false) :
    ∃ text, plan.print = .ok text ∧
      (Plan.parse text = .ok plan ↔
        ∀ node ∈ plan.nodes, ∀ part ∈ node.parts, part.HasShortYear) := by
  obtain ⟨text, printed⟩ := exists_print_of_parse read
  refine ⟨text, printed, ?_⟩
  rw [parse_eq_ok_iff_of_parse_of_print read numbers printed]
  exact and_iff_left rfl

/-- Odd blanks, plus signs, leading zeros and a month of one digit are read, and the printed text
is read as the same plan. -/
theorem exists_print_parse_oddSpellings :
    ∃ plan,
      Plan.parse "scan t  0:date 1:int\nfilter 0(and(= $0 date'+998-9-002')(< $1 +07))" = .ok plan ∧
      (∀ node ∈ plan.nodes, ∀ part ∈ node.parts, part.isNaN = false) ∧
      ∃ text, plan.print = .ok text ∧ Plan.parse text = .ok plan := by
  -- the plan is not written out: what is needed of it is decided on what was read
  have found : (Plan.parse
      "scan t  0:date 1:int\nfilter 0(and(= $0 date'+998-9-002')(< $1 +07))").toOption.any
        (fun plan => decide (∀ node ∈ plan.nodes, ∀ part ∈ node.parts,
          part.isNaN = false ∧ part.HasShortYear)) = true := by
    decide +kernel
  obtain ⟨plan, read, sound⟩ := (Option.any_eq_true _ _).1 found
  have read := toOption_eq_some_iff.1 read
  have sound := of_decide_eq_true sound
  have numbers := fun node member part inside => (sound node member part inside).1
  have short := fun node member part inside => (sound node member part inside).2
  obtain ⟨text, printed, again⟩ := exists_print_parse_iff_of_parse read numbers
  exact ⟨plan, read, numbers, text, printed, again.2 short⟩

/-- Not every plan without NaN that is read is read again after printing: the year 12345 is
accepted if its month has one digit, and the month is printed with two. -/
theorem not_parse_print_of_parse :
    ¬ ∀ source plan, Plan.parse source = .ok plan →
      (∀ node ∈ plan.nodes, ∀ part ∈ node.parts, part.isNaN = false) →
        ∃ text, plan.print = .ok text ∧ Plan.parse text = .ok plan := by
  intro normal
  have found : (Plan.parse "scan t 0:date\nfilter 0 (= $0 date'12345-1-01')\n").toOption.any
      (fun plan => decide ((∀ node ∈ plan.nodes, ∀ part ∈ node.parts, part.isNaN = false) ∧
        plan.print.toOption =
          some "database .\nscan t 0:date\nfilter 0 (= $0 date'12345-01-01')\n")) = true := by
    decide +kernel
  -- a year of five digits is accepted if the day is short, but printed with a long one
  have refused : (Plan.parse
      "database .\nscan t 0:date\nfilter 0 (= $0 date'12345-01-01')\n").toOption.isNone = true := by
    decide +kernel
  obtain ⟨plan, read, checked⟩ := (Option.any_eq_true _ _).1 found
  obtain ⟨numbers, printed⟩ := of_decide_eq_true checked
  obtain ⟨text, expected, again⟩ := normal _ plan (toOption_eq_some_iff.1 read) numbers
  rw [expected] at printed
  cases Option.some.inj printed
  rw [again] at refused
  cases refused

end Plan

end PlanCompiler
