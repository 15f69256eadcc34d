import PlanCompiler.Proofs.Plan.Wire.Run

/-!
# Positions while reading binary plans

Whatever the bytes of a buffer are, the readers have a run over it: they delimit only what fits
into what is left. A fault is reported at a position that the reader has been at, so within the
buffer or at its end.

## Main definitions

* `Wire.Reader.StaysIn`: a reader keeps to a buffer of a given size.

## Main results

* `Wire.Reader.staysIn_nodes`: the reader of a whole buffer keeps to it;
* `Plan.offset_le_of_decode_eq_error`: what is wrong with a buffer is found within it.
-/

namespace PlanCompiler

namespace Wire.Reader

variable {α β : Type}

/-- A reader that starts at a cursor in a buffer of a given size has a run. Its value satisfies a
condition, or it reports a position that is not beyond the end of the buffer. -/
def StaysAt (size : Nat) (c : Cursor) (reader : Reader α) (Q : α → Prop) : Prop :=
  (∃ stops, reader.Visits c stops) ∧
    Ends (reader c) (fun result => Q result.1) fun error => error.offset ≤ size

/-- A reader keeps to a buffer of a given size from every well-placed cursor. -/
def StaysIn (size : Nat) (reader : Reader α) (Q : α → Prop) : Prop :=
  ∀ c : Cursor, c.WellPlaced → c.bytes.size = size → StaysAt size c reader Q

variable {size : Nat} {reader : Reader α} {next : α → Reader β} {Q : α → Prop} {R : β → Prop}

/-- The second reader starts where the first one stops. -/
theorem StaysAt.bind {c : Cursor} (placed : c.WellPlaced) (whole : c.bytes.size = size)
    (first : StaysAt size c reader Q) (second : ∀ a, Q a → StaysIn size (next a) R) :
    StaysAt size c (reader >>= next) R := by
  obtain ⟨⟨stops, visits⟩, ends⟩ := first
  have behind := (visits.inRange placed).2
  -- a reader that fails visits nothing more; one that succeeds leaves a cursor of the same bytes
  cases found : reader c with
  | error error =>
    rw [found] at ends
    rw [StaysAt, bind_of_error found]
    exact ⟨⟨stops, visits.stop found⟩, ends⟩
  | ok result =>
    rw [found] at ends
    obtain ⟨placed', sameBytes, -⟩ := behind result found
    obtain ⟨⟨others, continued⟩, endsNext⟩ :=
      second result.1 ends result.2 placed' (sameBytes ▸ whole)
    rw [StaysAt, bind_of_ok found]
    exact ⟨⟨stops ++ others, visits.bind found continued⟩, endsNext⟩

/-- The number of the bytes that are left is known at a cursor. -/
theorem StaysAt.remaining {c : Cursor} {next : Nat → Reader β}
    (h : StaysAt size c (next c.remaining) R) : StaysAt size c (Reader.remaining >>= next) R := by
  obtain ⟨⟨stops, visits⟩, ends⟩ := h
  exact ⟨⟨_, .bind (.remaining c) rfl visits⟩, ends⟩

namespace StaysIn

/-- A result without reading keeps to the buffer. -/
theorem pure {a : α} (h : Q a) : StaysIn size (Pure.pure a) Q :=
  fun c _ _ => ⟨⟨_, .pure a c⟩, h⟩

/-- A failure keeps to the buffer if it reports a position in it. -/
theorem fail {offset : Nat} (bound : offset ≤ size) (fault : DecodeFault) :
    StaysIn size (Reader.fail offset fault) Q :=
  fun c _ _ => ⟨⟨_, .fail offset fault c⟩, bound⟩

/-- A sequence keeps to the buffer if its steps do; the second may rely on what the first ensures.
-/
theorem bind (first : StaysIn size reader Q) (second : ∀ a, Q a → StaysIn size (next a) R) :
    StaysIn size (reader >>= next) R :=
  fun c placed whole => (first c placed whole).bind placed whole second

/-- What a reader ensures may be weakened. -/
theorem imp (h : StaysIn size reader Q) {Q' : α → Prop} (weaker : ∀ a, Q a → Q' a) :
    StaysIn size reader Q' :=
  fun c placed whole => ⟨(h c placed whole).1, (h c placed whole).2.imp fun _ => weaker _⟩

/-- A sequence keeps to the buffer if its steps do. -/
theorem bind_of_true (first : StaysIn size reader fun _ => True)
    (second : ∀ a, StaysIn size (next a) R) : StaysIn size (reader >>= next) R :=
  first.bind fun a _ => second a

/-- The place of the next byte is within the buffer or at its end. -/
theorem here : StaysIn size Reader.here fun offset => offset ≤ size := by
  rintro c placed rfl
  exact ⟨⟨_, .here c⟩, Nat.le_trans placed.1 placed.2⟩

/-- Asking for the number of bytes left keeps to the buffer. -/
theorem remaining : StaysIn size Reader.remaining fun _ => True :=
  fun c _ _ => ⟨⟨_, .remaining c⟩, trivial⟩

/-- Nothing is read after a fault. -/
theorem fail_bind {offset : Nat} (bound : offset ≤ size) {fault : DecodeFault} :
    StaysIn size (Reader.fail offset fault >>= next) R :=
  fun c _ _ => ⟨⟨_, .stop (.fail offset fault c) rfl⟩, bound⟩

/-- A check between two steps. -/
theorem check {p : Prop} [Decidable p] {offset : Nat} {fault : DecodeFault} {go : Reader α}
    (bound : offset ≤ size) (h : StaysIn size go Q) :
    StaysIn size (if p then Reader.fail offset fault >>= fun _ : PUnit => go else go) Q := by
  split
  · exact fail_bind bound
  · exact h

/-- Taking bytes keeps to the buffer. -/
theorem take (n : Nat) (what : String) : StaysIn size (Reader.take n what) fun _ => True := by
  rintro c placed rfl
  by_cases short : c.remaining < n
  · refine ⟨⟨_, .short short what⟩, ?_⟩
    rw [Reader.take, if_pos short]
    exact Nat.le_trans placed.1 placed.2
  · refine ⟨⟨_, .take (Nat.le_of_not_lt short) what⟩, ?_⟩
    rw [Reader.take, if_neg short]
    exact trivial

/-- Reading a number keeps to the buffer. -/
theorem number (width : Nat) (what : String) :
    StaysIn size (Reader.number width what) fun _ => True :=
  (take width what).bind_of_true fun _ => pure trivial

/-- Reading a byte keeps to the buffer. -/
theorem byte (what : String) : StaysIn size (Reader.byte what) fun _ => True :=
  (number 1 what).bind_of_true fun _ => pure trivial

/-- Reading a word keeps to the buffer. -/
theorem word (what : String) : StaysIn size (Reader.word what) fun _ => True :=
  (number 4 what).bind_of_true fun _ => pure trivial

/-- Reading a count keeps to the buffer. -/
theorem count (what : String) (least : Nat) :
    StaysIn size (Reader.count what least) fun _ => True :=
  here.bind fun _ countAt => (number 4 what).bind_of_true fun _ =>
    remaining.bind_of_true fun _ => (pure trivial).check countAt

/-- Reading a string keeps to the buffer. -/
theorem string (what : String) : StaysIn size (Reader.string what) fun _ => True := by
  refine (count what 1).bind_of_true fun length => here.bind fun _ textAt =>
    (take length what).bind_of_true fun bytes => ?_
  split
  · exact pure trivial
  · exact fail textAt _

/-- What holds of every element that is read holds of all of them. -/
theorem replicate (h : StaysIn size reader Q) (n : Nat) :
    StaysIn size (Reader.replicate reader n) fun values => ∀ a ∈ values, Q a := by
  induction n with
  | zero => exact pure (List.forall_mem_nil _)
  | succ n ih =>
    refine h.bind fun first satisfied => ih.bind fun others satisfiedByOthers => pure ?_
    exact List.forall_mem_cons.2 ⟨satisfied, satisfiedByOthers⟩

/-- Reading so many elements keeps to the buffer if reading one does. -/
theorem replicate_of_true (h : StaysIn size reader fun _ => True) (n : Nat) :
    StaysIn size (Reader.replicate reader n) fun _ => True :=
  (h.replicate n).imp fun _ _ => trivial

/-- A part that fits into what is left. -/
theorem delimitedAt (h : StaysIn size reader fun _ => True) {c : Cursor} (placed : c.WellPlaced)
    (whole : c.bytes.size = size) {length : Nat} (fits : length ≤ c.remaining)
    (unread : Nat → α → DecodeFault) :
    StaysAt size c (Reader.delimited length reader unread) fun _ => True := by
  have inner := placed.narrow fits
  obtain ⟨⟨stops, visits⟩, ends⟩ := h _ inner whole
  have behind := (visits.inRange inner).2
  -- the reader saw the part only, so where it stops is within the part
  cases found : reader { c with limit := c.offset + length } with
  | error error =>
    rw [found] at ends
    rw [StaysAt, delimited_of_error found]
    exact ⟨⟨_, visits.stopInside fits found unread⟩, ends⟩
  | ok result =>
    obtain ⟨placed', sameBytes, -⟩ := behind result found
    rw [StaysAt, delimited_of_ok found]
    refine ⟨⟨_, visits.delimited fits found unread⟩, ?_⟩
    split
    · exact whole ▸ sameBytes ▸ Nat.le_trans placed'.1 placed'.2
    · exact trivial

/-- A part whose length is compared with what is left before it is read. -/
theorem delimited (h : StaysIn size reader fun _ => True) {length offset : Nat}
    (bound : offset ≤ size) {tooLong : Nat → DecodeFault} {unread : Nat → α → DecodeFault}
    (after : ∀ a, StaysIn size (next a) R) :
    StaysIn size (Reader.remaining >>= fun left =>
      if left < length then
        Reader.fail offset (tooLong left) >>= fun _ : PUnit =>
          Reader.delimited length reader unread >>= next
      else Reader.delimited length reader unread >>= next) R := by
  intro c placed whole
  refine .remaining ?_
  split
  · exact fail_bind bound c placed whole
  · rename_i fits
    exact (delimitedAt h placed whole (Nat.le_of_not_lt fits) unread).bind placed whole
      fun a _ => after a

end StaysIn

/-! ## Expressions, nodes and plans -/

/-- Reading an expression keeps to the buffer. -/
theorem staysIn_expr (levels : Nat) : StaysIn size (expr levels) fun _ => True := by
  -- the operands of an expression are read with one level less
  induction levels with
  | zero => exact StaysIn.here.bind fun _ start => .fail start _
  | succ levels ih =>
    refine StaysIn.here.bind fun _ start => (StaysIn.byte _).bind_of_true fun byte => ?_
    cases ExprTag.ofByte? byte with
    | none => exact .fail start _
    | some tag =>
      cases tag with
      | column => exact (StaysIn.word _).bind_of_true fun _ => .pure trivial
      | int => exact (StaysIn.number 8 _).bind_of_true fun _ => .pure trivial
      | float => exact (StaysIn.number 8 _).bind_of_true fun _ => .pure trivial
      | date => exact (StaysIn.word _).bind_of_true fun _ => .pure trivial
      | text => exact (StaysIn.string _).bind_of_true fun _ => .pure trivial
      | binary =>
        refine StaysIn.here.bind fun _ operatorAt => (StaysIn.byte _).bind_of_true fun tag => ?_
        cases BinaryOp.ofTag? tag with
        | none => exact .fail operatorAt _
        | some op =>
          exact ih.bind_of_true fun _ => ih.bind_of_true fun _ => .pure trivial
      | junction connective =>
        exact StaysIn.here.bind fun _ countAt => (StaysIn.count _ 1).bind_of_true fun n =>
          ((ih.replicate_of_true n).bind_of_true fun _ => .pure trivial).check countAt
      | not => exact ih.bind_of_true fun _ => .pure trivial
      | case =>
        exact ih.bind_of_true fun _ => ih.bind_of_true fun _ => ih.bind_of_true fun _ =>
          .pure trivial
      | like =>
        exact ih.bind_of_true fun _ => (StaysIn.string _).bind_of_true fun _ => .pure trivial

/-- Reading a scan's column keeps to the buffer. -/
theorem staysIn_scanColumn : StaysIn size scanColumn fun _ => True := by
  refine (StaysIn.word _).bind_of_true fun index => StaysIn.here.bind fun _ typeAt =>
    (StaysIn.byte _).bind_of_true fun tag => ?_
  split
  · exact .pure trivial
  · exact .fail typeAt _

/-- Reading an aggregate keeps to the buffer. -/
theorem staysIn_aggregate : StaysIn size aggregate fun _ => True := by
  refine StaysIn.here.bind fun _ start => (StaysIn.byte _).bind_of_true fun tag => ?_
  split
  · exact (StaysIn.word _).bind_of_true fun _ => .pure trivial
  split
  · exact .pure trivial
  split
  · exact (StaysIn.word _).bind_of_true fun _ => .pure trivial
  split
  · exact (StaysIn.word _).bind_of_true fun _ => .pure trivial
  · exact .fail start _

/-- Reading a node's body keeps to the buffer. -/
theorem staysIn_nodeBody {tagAt : Nat} (bound : tagAt ≤ size) (tag : UInt8) :
    StaysIn size (nodeBody tagAt tag) fun _ => True := by
  -- one case for each tag, in the order in which the reader asks for them
  rw [nodeBody]
  split
  · exact (StaysIn.string _).bind_of_true fun _ => (StaysIn.count _ 5).bind_of_true fun n =>
      (staysIn_scanColumn.replicate_of_true n).bind_of_true fun _ => .pure trivial
  split
  · exact (StaysIn.word _).bind_of_true fun _ => (staysIn_expr _).bind_of_true fun _ =>
      .pure trivial
  split
  · exact (StaysIn.word _).bind_of_true fun _ => (StaysIn.count _ 1).bind_of_true fun n =>
      ((staysIn_expr _).replicate_of_true n).bind_of_true fun _ => .pure trivial
  split
  · exact (StaysIn.word _).bind_of_true fun _ => (StaysIn.word _).bind_of_true fun _ =>
      (StaysIn.word _).bind_of_true fun _ => (StaysIn.word _).bind_of_true fun _ => .pure trivial
  split
  · exact (StaysIn.word _).bind_of_true fun _ => (StaysIn.count _ 4).bind_of_true fun groups =>
      ((StaysIn.word _).replicate_of_true groups).bind_of_true fun _ =>
      (StaysIn.count _ 1).bind_of_true fun n =>
      (staysIn_aggregate.replicate_of_true n).bind_of_true fun _ => .pure trivial
  · exact .fail bound _

/-- A node is known by a position within the buffer. -/
theorem staysIn_node : StaysIn size node fun placed => placed.1 ≤ size :=
  StaysIn.here.bind fun _ tagAt => (StaysIn.byte _).bind_of_true fun tag =>
    StaysIn.here.bind fun _ lengthAt => (StaysIn.number 4 _).bind_of_true fun _ =>
    (staysIn_nodeBody tagAt tag).delimited lengthAt fun _ => .pure tagAt

/-- Every node of a buffer is known by a position within the buffer. -/
theorem staysIn_nodes :
    StaysIn size nodes fun result => ∀ placed ∈ result.2, placed.1 ≤ size := by
  refine (StaysIn.take _ _).bind_of_true fun _ => .check (Nat.zero_le _) ?_
  refine StaysIn.here.bind fun _ versionAt => (StaysIn.number 2 _).bind_of_true fun _ =>
    .check versionAt ?_
  refine (StaysIn.string _).bind_of_true fun database => StaysIn.here.bind fun _ countAt =>
    (StaysIn.count _ 5).bind_of_true fun n => .check countAt ?_
  refine (staysIn_node.replicate n).bind fun placed within =>
    StaysIn.remaining.bind_of_true fun left => ?_
  split
  · exact StaysIn.here.bind fun _ stop => .fail_bind stop
  · exact .pure within

end Wire.Reader

namespace Plan

/-- What is wrong with a buffer shows within the buffer or at its end. -/
theorem offset_le_of_decode_eq_error {buffer : List UInt8} {error : Wire.DecodeError}
    (malformed : Plan.decode buffer = .error error) : error.offset ≤ buffer.length := by
  have ends : Ends (Plan.decode buffer) (fun _ => True) fun error =>
      error.offset ≤ (Wire.Cursor.start buffer).bytes.size := by
    have read := Wire.Reader.staysIn_nodes _ (Wire.Cursor.wellPlaced_start buffer) rfl
    refine Ends.bind read.2 ?_
    rintro ⟨⟨database, placed⟩, c⟩ within
    refine Ends.trivial.mapError fun fault _ => ?_
    -- the position of a node, or the start of the buffer if there is no such node
    show (placed.map (·.1)).getD fault.node 0 ≤ _
    rw [List.getD_eq_getElem?_getD, List.getElem?_map]
    cases found : placed[fault.node]? with
    | none => exact Nat.zero_le _
    | some entry => exact within entry (List.mem_of_getElem? found)
  rw [malformed] at ends
  exact ends

end Plan

end PlanCompiler
