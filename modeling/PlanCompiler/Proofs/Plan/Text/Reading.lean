import PlanCompiler.Plan.LineReader
import PlanCompiler.Proofs.Numeral
import PlanCompiler.Proofs.Outcome

/-!
# Reading tokens

A reader that is given the tokens of a value in front of others takes exactly these tokens and
returns the value, provided that a condition on the value holds, and fails otherwise. This is
stated as an equivalence, so that one lemma for each combinator tells both when a line is read
and when it is not.

Where a value nests too deeply the reader reports just that, if everything before the part that is
too deep is read.

## Main definitions

* `LineReader.Reads`: what a reader does with the tokens of a value;
* `LineReader.ReportsNesting`: what a reader does with the tokens of a value that nests too deeply.

## Main results

* `LineReader.Reads.bind`: one reader after the other;
* `LineReader.Reads.number`: positions and column numbers;
* `LineReader.Reads.many`: repetitions;
* `LineReader.ReportsNesting.after`, `LineReader.ReportsNesting.many`: the same for nesting.
-/

namespace PlanCompiler.LineReader

variable {α β : Type}

/-- In front of tokens that satisfy `after`, a reader takes exactly the given tokens and returns
the value `a` if the condition `P` holds, and fails if it does not. -/
def Reads (after : List Token → Prop) (reader : LineReader α) (tokens : List Token) (P : Prop)
    (a : α) : Prop :=
  ∀ rest, after rest → ∀ b later,
    reader (tokens ++ rest) = .ok (b, later) ↔ P ∧ b = a ∧ later = rest

/-- Any tokens may follow. -/
def anything : List Token → Prop := fun _ => True

/-- A sequence succeeds exactly if its steps do, one after the other. -/
theorem bind_apply_eq_ok_iff {reader : LineReader α} {step : α → LineReader β}
    {tokens later : List Token} {b : β} :
    (reader >>= step) tokens = .ok (b, later) ↔
      ∃ a rest, reader tokens = .ok (a, rest) ∧ step a rest = .ok (b, later) := by
  show (reader tokens >>= fun (a, rest) => step a rest) = _ ↔ _
  rw [bind_eq_ok_iff]
  exact ⟨fun ⟨(a, rest), taken⟩ => ⟨a, rest, taken⟩, fun ⟨a, rest, taken⟩ => ⟨(a, rest), taken⟩⟩

namespace Reads

variable {after before : List Token → Prop} {reader : LineReader α} {step : α → LineReader β}
  {tokens others : List Token} {P Q : Prop} {a : α} {b : β}

/-- The condition may be put in other words. -/
theorem congr (h : Reads after reader tokens P a) (same : P ↔ Q) :
    Reads after reader tokens Q a := by
  intro rest follows b later
  rw [h rest follows, same]

/-- Fewer continuations may be allowed. -/
theorem mono (h : Reads before reader tokens P a) (fewer : ∀ rest, after rest → before rest) :
    Reads after reader tokens P a :=
  fun rest follows => h rest (fewer rest follows)

/-- A result without reading is read from no tokens. -/
theorem pure (after : List Token → Prop) (a : α) :
    Reads after (Pure.pure a : LineReader α) [] True a := by
  intro rest _ b later
  show (Except.ok (a, rest) : Except LineFault _) = _ ↔ _
  rw [Except.ok.injEq, Prod.mk.injEq, true_and, eq_comm, @eq_comm _ later]

/-- One reader after the other. -/
theorem bind (first : Reads before reader tokens P a) (second : Reads after (step a) others Q b)
    (follow : ∀ rest, after rest → before (others ++ rest)) :
    Reads after (reader >>= step) (tokens ++ others) (P ∧ Q) b := by
  intro rest follows c later
  -- the tokens of the second reader are a part of what follows those of the first
  rw [List.append_assoc, bind_apply_eq_ok_iff]
  constructor
  · rintro ⟨a', rest', taken, result⟩
    -- the first reader stops in front of the other tokens
    obtain ⟨holds, rfl, rfl⟩ := (first _ (follow rest follows) a' rest').1 taken
    obtain ⟨holds', rfl, rfl⟩ := (second rest follows c later).1 result
    exact ⟨⟨holds, holds'⟩, rfl, rfl⟩
  · rintro ⟨⟨holds, holds'⟩, rfl, rfl⟩
    exact ⟨a, others ++ later, (first _ (follow later follows) _ _).2 ⟨holds, rfl, rfl⟩,
      (second later follows _ _).2 ⟨holds', rfl, rfl⟩⟩

/-- A reader that never fails comes first. -/
theorem bind_of_true (first : Reads anything reader tokens True a)
    (second : Reads after (step a) others Q b) :
    Reads after (reader >>= step) (tokens ++ others) Q b :=
  (first.bind second fun _ _ => trivial).congr (iff_of_eq (true_and Q))

/-- The result is computed at the end. -/
theorem map (f : α → β) (h : Reads after reader tokens P a) :
    Reads after (reader >>= fun a => Pure.pure (f a)) tokens P (f a) := by
  have last : Reads after (Pure.pure (f a) : LineReader β) [] True (f a) := pure after (f a)
  have follow : ∀ rest, after rest → after ([] ++ rest) := fun _ follows => follows
  rw [← List.append_nil tokens]
  exact (h.bind last follow).congr (iff_of_eq (and_true P))

/-! ## Single tokens -/

/-- The next token is read as it is. -/
theorem next (what : String) (token : Token) :
    Reads anything (LineReader.next what) [token] True token := by
  intro rest _ b later
  show (Except.ok (token, rest) : Except LineFault _) = _ ↔ _
  rw [Except.ok.injEq, Prod.mk.injEq, true_and, eq_comm, @eq_comm _ later]

/-- An atom is read as its text. -/
theorem atom (what text : String) : Reads anything (LineReader.atom what) [.atom text] True text :=
  (next what (.atom text)).bind_of_true (pure anything text)

/-- An expected token is read. -/
theorem expect (token : Token) : Reads anything (LineReader.expect token) [token] True () := by
  refine (next token.describe token).bind_of_true ?_
  rw [if_neg (not_not.2 rfl)]
  exact pure anything ()

/-- A keyword is read from its atom. -/
theorem keyword (word : String) :
    Reads anything (LineReader.keyword word) [.atom word] True () := by
  refine (atom word word).bind_of_true ?_
  rw [if_neg (not_not.2 rfl)]
  exact pure anything ()

/-- A number is read from its digits. -/
theorem number (what : String) (n : UInt32) :
    Reads anything (LineReader.number what) [.atom (toString n.toNat)] True n := by
  refine (atom what (toString n.toNat)).bind_of_true ?_
  rw [Numeral.uint32?_toString]
  exact pure anything n

/-- A computation that takes no tokens. -/
theorem lift {x : Except LineFault α} (h : ∀ b, x = .ok b ↔ P ∧ b = a) :
    Reads anything (x : LineReader α) [] P a := by
  intro rest _ b later
  show (x >>= fun b => Pure.pure (b, rest)) = _ ↔ _
  rw [bind_eq_ok_iff]
  constructor
  · rintro ⟨c, found, result⟩
    obtain ⟨rfl, rfl⟩ := Prod.mk.inj (Except.ok.inj result)
    obtain ⟨holds, rfl⟩ := (h c).1 found
    exact ⟨holds, rfl, rfl⟩
  · rintro ⟨holds, rfl, rfl⟩
    exact ⟨b, (h b).2 ⟨holds, rfl⟩, rfl⟩

/-! ## Repetitions -/

/-- At most as many elements as there are rounds, up to the tokens that end the repetition. -/
theorem elementsUntil {ends : List Token → Bool} {element : LineReader α} {values : List α}
    {groups : List (List Token)} {R : α → Prop}
    (h : List.Forall₂ (fun a tokens => Reads anything element tokens (R a) a ∧
      ∀ rest, ends (tokens ++ rest) = false) values groups)
    {rounds : Nat} (enough : values.length ≤ rounds) :
    Reads (fun rest => ends rest = true) (LineReader.elementsUntil ends element rounds)
      groups.flatten (∀ a ∈ values, R a) values := by
  induction h generalizing rounds with
  | nil =>
    intro rest follows b later
    -- the repetition stops here whether or not rounds are left
    have stops : LineReader.elementsUntil ends element rounds rest = .ok ([], rest) := by
      cases rounds with
      | zero => rfl
      | succ rounds =>
        show (if ends rest = true then _ else _ : LineReader (List α)) rest = _
        rw [if_pos follows]
        rfl
    rw [List.flatten_nil, List.nil_append, stops]
    simp [eq_comm]
  | cons first others ih =>
    rename_i a group values groups
    obtain ⟨reads, starts⟩ := first
    obtain ⟨rounds, rfl⟩ : ∃ fewer, rounds = fewer + 1 :=
      ⟨rounds - 1, by rw [List.length_cons] at enough; omega⟩
    -- one round of the loop, as it goes on behind its test
    have step : Reads (fun rest => ends rest = true)
        (element >>= fun a => LineReader.elementsUntil ends element rounds >>= fun as =>
          Pure.pure (a :: as)) (group ++ groups.flatten) (R a ∧ ∀ a ∈ values, R a) (a :: values) :=
      reads.bind ((ih (by simpa using enough)).map (a :: ·)) fun _ _ => trivial
    intro rest follows b later
    have begins := starts (groups.flatten ++ rest)
    rw [← List.append_assoc] at begins
    rw [List.flatten_cons, List.forall_mem_cons, ← step rest follows]
    show (if ends ((group ++ groups.flatten) ++ rest) = true then _ else _ :
      LineReader (List α)) _ = _ ↔ _
    rw [if_neg (by rw [begins]; decide)]

/-- If no group is empty, there are as many tokens as groups at least. -/
theorem length_le_of_nonempty {groups : List (List Token)} (nonempty : ∀ group ∈ groups, group ≠ [])
    (rest : List Token) : groups.length ≤ (groups.flatten ++ rest).length := by
  rw [List.length_append]
  induction groups with
  | nil => exact Nat.zero_le _
  | cons group groups ih =>
    have := List.length_pos_iff.2 (nonempty group List.mem_cons_self)
    have := ih fun group member => nonempty group (List.mem_cons_of_mem _ member)
    rw [List.flatten_cons, List.length_append, List.length_cons]
    omega

/-- Elements up to the tokens that end the repetition: each takes at least one token. -/
theorem many {ends : List Token → Bool} {element : LineReader α} {values : List α}
    {groups : List (List Token)} {R : α → Prop}
    (h : List.Forall₂ (fun a tokens => Reads anything element tokens (R a) a ∧
      ∀ rest, ends (tokens ++ rest) = false) values groups)
    (nonempty : ∀ group ∈ groups, group ≠ []) :
    Reads (fun rest => ends rest = true) (LineReader.many ends element) groups.flatten
      (∀ a ∈ values, R a) values := by
  intro rest follows b later
  exact elementsUntil h (h.length_eq ▸ length_le_of_nonempty nonempty rest) rest follows b later

/-- Elements up to the end of the line. -/
theorem manyToEnd {element : LineReader α} {values : List α} {groups : List (List Token)}
    {R : α → Prop}
    (h : List.Forall₂ (fun a tokens => Reads anything element tokens (R a) a ∧ tokens ≠ [])
      values groups) :
    Reads (· = []) (LineReader.manyToEnd element) groups.flatten (∀ a ∈ values, R a) values := by
  have nonempty : ∀ group ∈ groups, group ≠ [] := by
    intro group member
    obtain ⟨a, -, read⟩ := exists_of_mem_of_forall₂ h.flip member
    exact read.2
  -- a line only ends where there are no tokens
  have starts := h.imp fun a group (read : _ ∧ group ≠ []) =>
    (⟨read.1, fun rest => by simp [read.2]⟩ :
      Reads anything element group (R a) a ∧ ∀ rest, List.isEmpty (group ++ rest) = false)
  exact (many starts nonempty).mono fun rest last => by rw [last]; rfl

/-- Elements that are always read. -/
theorem manyToEnd_of_true {element : LineReader α} {values : List α} {g : α → List Token}
    (h : ∀ a ∈ values, Reads anything element (g a) True a ∧ g a ≠ []) :
    Reads (· = []) (LineReader.manyToEnd element) (values.flatMap g) True values := by
  have reads : List.Forall₂ (fun a tokens => Reads anything element tokens True a ∧ tokens ≠ [])
      values (values.map g) :=
    List.forall₂_map_right_iff.2 (List.forall₂_same.2 h)
  rw [List.flatMap_def]
  exact (manyToEnd reads).congr (iff_true_intro fun _ _ => trivial)

end Reads

/-! ## Nesting -/

/-- In front of any tokens a reader reports the nesting of the given ones. -/
def ReportsNesting (reader : LineReader α) (tokens : List Token) : Prop :=
  ∀ rest, reader (tokens ++ rest) = .error .nesting

namespace ReportsNesting

variable {reader : LineReader α} {step : α → LineReader β} {tokens others : List Token} {a : α}

/-- What reports the nesting does so whatever follows. -/
theorem append (h : ReportsNesting reader tokens) (others : List Token) :
    ReportsNesting reader (tokens ++ others) := by
  intro rest
  rw [List.append_assoc]
  exact h (others ++ rest)

/-- Nothing is read behind what is too deep. -/
theorem bind (h : ReportsNesting reader tokens) : ReportsNesting (reader >>= step) tokens := by
  intro rest
  show (reader (tokens ++ rest) >>= fun (a, rest) => step a rest) = _
  rw [h rest]
  rfl

/-- What stands before is read. -/
theorem after (second : ReportsNesting (step a) others)
    (first : Reads anything reader tokens True a) :
    ReportsNesting (reader >>= step) (tokens ++ others) := by
  intro rest
  rw [List.append_assoc]
  show (reader (tokens ++ (others ++ rest)) >>= fun (a, rest) => step a rest) = _
  rw [(first (others ++ rest) trivial a (others ++ rest)).2 ⟨trivial, rfl, rfl⟩]
  exact second rest

/-- Of the elements of a repetition one is too deep, and those before it are read. -/
theorem elementsUntil {ends : List Token → Bool} {element : LineReader α} {values : List α}
    {groups : List (List Token)}
    (h : List.Forall₂ (fun a tokens => (Reads anything element tokens True a ∨
      ReportsNesting element tokens) ∧ ∀ rest, ends (tokens ++ rest) = false) values groups)
    (deep : ∃ group ∈ groups, ReportsNesting element group) {rounds : Nat}
    (enough : values.length ≤ rounds) :
    ReportsNesting (LineReader.elementsUntil ends element rounds) groups.flatten := by
  induction h generalizing rounds with
  | nil =>
    obtain ⟨_, member, -⟩ := deep
    cases member
  | @cons a group values groups first others ih =>
    obtain ⟨reads, starts⟩ := first
    obtain ⟨rounds, rfl⟩ : ∃ fewer, rounds = fewer + 1 :=
      ⟨rounds - 1, by rw [List.length_cons] at enough; omega⟩
    -- one round of the loop, as it goes on behind its test
    have round : ReportsNesting (element >>= fun a => LineReader.elementsUntil ends element rounds
        >>= fun as => Pure.pure (a :: as)) (group ++ groups.flatten) := by
      by_cases reported : ReportsNesting element group
      · exact reported.bind.append _
      · obtain ⟨other, member, tooDeep⟩ := deep
        have later : other ∈ groups :=
          (List.mem_cons.1 member).resolve_left fun same => reported (same ▸ tooDeep)
        refine .after ?_ (reads.resolve_right reported)
        exact (ih ⟨other, later, tooDeep⟩ (by simpa using enough)).bind
    intro rest
    have begins := starts (groups.flatten ++ rest)
    rw [← List.append_assoc] at begins
    rw [List.flatten_cons, ← round rest]
    show (if ends ((group ++ groups.flatten) ++ rest) = true then _ else _ :
      LineReader (List α)) _ = _
    rw [if_neg (by rw [begins]; decide)]

/-- Elements one after the other report the nesting if one of them does. -/
theorem many {ends : List Token → Bool} {element : LineReader α} {values : List α}
    {groups : List (List Token)}
    (h : List.Forall₂ (fun a tokens => (Reads anything element tokens True a ∨
      ReportsNesting element tokens) ∧ ∀ rest, ends (tokens ++ rest) = false) values groups)
    (deep : ∃ group ∈ groups, ReportsNesting element group)
    (nonempty : ∀ group ∈ groups, group ≠ []) :
    ReportsNesting (LineReader.many ends element) groups.flatten :=
  fun rest => elementsUntil h deep (h.length_eq ▸ Reads.length_le_of_nonempty nonempty rest) rest

end ReportsNesting

end PlanCompiler.LineReader
