import PlanCompiler.Plan.Wire.Reader
import PlanCompiler.Proofs.Outcome

/-!
# Runs of readers of binary plans

A run of a reader is the sequence of its primitive steps. Each step is made at a cursor and may
need a number of the bytes behind it: to take them, or to make their end the limit of what is read
next. No step is made that would narrow the limit beyond the one before, so that a reader without
a run is one that would leave its buffer.

A run from a cursor within its limits is made of such cursors, and all bytes it needs lie before
their limits: the invariant that every step preserves.

## Main definitions

* `Wire.Stop`: a cursor of a run and the number of bytes needed there;
* `Wire.Reader.Visits`: the stops of a run.

## Main results

* `Wire.Reader.Visits.inRange`: no run leaves the buffer.
-/

namespace PlanCompiler.Wire

namespace Cursor

variable {c : Cursor} {n : Nat}

/-- As many bytes as remain lie before the limit. -/
theorem WellPlaced.offset_add_le (placed : c.WellPlaced) (fits : n ≤ c.remaining) :
    c.offset + n ≤ c.limit := by
  have := placed.1
  rw [remaining] at fits
  omega

/-- The limit may be moved to an earlier place. -/
theorem WellPlaced.narrow (placed : c.WellPlaced) (fits : n ≤ c.remaining) :
    ({ c with limit := c.offset + n } : Cursor).WellPlaced :=
  ⟨Nat.le_add_right _ _, Nat.le_trans (placed.offset_add_le fits) placed.2⟩

end Cursor

/-- A cursor that a reader comes to, and the number of the bytes behind it that are needed there. -/
structure Stop where
  /-- Position and limit. -/
  cursor : Cursor
  /-- Number of bytes taken or delimited. -/
  length : Nat

/-- The position is not beyond the limit nor the limit beyond the buffer, and what is needed lies
before the limit. -/
def Stop.InRange (stop : Stop) : Prop :=
  stop.cursor.WellPlaced ∧ stop.cursor.offset + stop.length ≤ stop.cursor.limit

namespace Reader

section

variable {α β : Type} {reader : Reader α} {next : α → Reader β} {c : Cursor}

/-- Behind a success, a sequence goes on with its result. -/
theorem bind_of_ok {result : α × Cursor} (found : reader c = .ok result) :
    (reader >>= next) c = next result.1 result.2 := by
  show (reader c >>= fun result => next result.1 result.2) = _
  rw [found]
  rfl

/-- Behind a failure, a sequence fails alike. -/
theorem bind_of_error {error : DecodeError} (failed : reader c = .error error) :
    (reader >>= next) c = .error error := by
  show (reader c >>= fun result => next result.1 result.2) = _
  rw [failed]
  rfl

variable {length : Nat} {unread : Nat → α → DecodeFault}

/-- A reader that succeeds within its limit must have come to the end of it. -/
theorem delimited_of_ok {result : α × Cursor}
    (found : reader { c with limit := c.offset + length } = .ok result) :
    delimited length reader unread c =
      if result.2.remaining ≠ 0 then
        .error { offset := result.2.offset, fault := unread result.2.remaining result.1 }
      else .ok (result.1, { result.2 with limit := c.limit }) := by
  rw [delimited, found]
  rfl

/-- A reader that fails within its limit fails alike. -/
theorem delimited_of_error {error : DecodeError}
    (failed : reader { c with limit := c.offset + length } = .error error) :
    delimited length reader unread c = .error error := by
  rw [delimited, failed]
  rfl

end

/-- The stops of a run of a reader from a cursor. -/
inductive Visits : {α : Type} → Reader α → Cursor → List Stop → Prop
  | pure {α : Type} (a : α) (c : Cursor) : Visits (Pure.pure a) c []
  | fail {α : Type} (offset : Nat) (fault : DecodeFault) (c : Cursor) :
    Visits (Reader.fail offset fault : Reader α) c []
  | here (c : Cursor) : Visits Reader.here c [⟨c, 0⟩]
  | remaining (c : Cursor) : Visits Reader.remaining c [⟨c, 0⟩]
  | short {n : Nat} {c : Cursor} (missing : c.remaining < n) (what : String) :
    Visits (Reader.take n what) c [⟨c, 0⟩]
  | take {n : Nat} {c : Cursor} (enough : n ≤ c.remaining) (what : String) :
    Visits (Reader.take n what) c [⟨c, n⟩, ⟨c.advance n, 0⟩]
  | stop {α β : Type} {reader : Reader α} {next : α → Reader β} {c : Cursor} {stops : List Stop}
    {error : DecodeError} (first : Visits reader c stops) (failed : reader c = .error error) :
    Visits (reader >>= next) c stops
  | bind {α β : Type} {reader : Reader α} {next : α → Reader β} {c c' : Cursor}
    {stops others : List Stop} {a : α} (first : Visits reader c stops)
    (found : reader c = .ok (a, c')) (second : Visits (next a) c' others) :
    Visits (reader >>= next) c (stops ++ others)
  | stopInside {α : Type} {length : Nat} {contents : Reader α} {c : Cursor} {stops : List Stop}
    {error : DecodeError} (fits : length ≤ c.remaining)
    (inside : Visits contents { c with limit := c.offset + length } stops)
    (failed : contents { c with limit := c.offset + length } = .error error)
    (unread : Nat → α → DecodeFault) :
    Visits (Reader.delimited length contents unread) c (⟨c, length⟩ :: stops)
  | delimited {α : Type} {length : Nat} {contents : Reader α} {c c' : Cursor} {stops : List Stop}
    {a : α} (fits : length ≤ c.remaining)
    (inside : Visits contents { c with limit := c.offset + length } stops)
    (found : contents { c with limit := c.offset + length } = .ok (a, c'))
    (unread : Nat → α → DecodeFault) :
    Visits (Reader.delimited length contents unread) c (⟨c, length⟩ :: (stops ++ [⟨c', 0⟩]))

namespace Visits

variable {α : Type} {reader : Reader α} {c : Cursor} {stops : List Stop}

/-- The stops are in range, in one buffer. If the reader has a result, the cursor behind it is
within the limit that was there before. -/
theorem inRange (visits : Visits reader c stops) (placed : c.WellPlaced) :
    (∀ stop ∈ stops, stop.cursor.bytes = c.bytes ∧ stop.InRange) ∧
      Gives (reader c) fun result =>
        result.2.WellPlaced ∧ result.2.bytes = c.bytes ∧ result.2.limit = c.limit := by
  have unmoved (c : Cursor) (placed : c.WellPlaced) :
      ∀ stop ∈ [(⟨c, 0⟩ : Stop)], stop.cursor.bytes = c.bytes ∧ stop.InRange :=
    List.forall_mem_singleton.2 ⟨rfl, placed, placed.1⟩
  induction visits with
  | pure a c => exact ⟨List.forall_mem_nil _, .ok ⟨placed, rfl, rfl⟩⟩
  | fail offset fault c => exact ⟨List.forall_mem_nil _, .error _⟩
  | here c | remaining c => exact ⟨unmoved c placed, .ok ⟨placed, rfl, rfl⟩⟩
  | @short n c missing what =>
    refine ⟨unmoved c placed, ?_⟩
    rw [Reader.take, if_pos missing]
    exact .error _
  | @take n c enough what =>
    have room := placed.offset_add_le enough
    have behind : (c.advance n).WellPlaced := ⟨room, placed.2⟩
    refine ⟨List.forall_mem_cons.2 ⟨⟨rfl, placed, room⟩, unmoved _ behind⟩, ?_⟩
    rw [Reader.take, if_neg (Nat.not_lt.2 enough)]
    exact .ok ⟨behind, rfl, rfl⟩
  | @stop _ _ reader next c stops error first failed ih =>
    rw [bind_of_error failed]
    exact ⟨(ih placed).1, .error _⟩
  | @bind _ _ reader next c c' stops others a first found second ih ihNext =>
    obtain ⟨within, behind⟩ := ih placed
    obtain ⟨placed', sameBytes, sameLimit⟩ := behind _ found
    obtain ⟨withinNext, behindNext⟩ := ihNext placed'
    rw [sameBytes] at withinNext behindNext
    rw [sameLimit] at behindNext
    rw [bind_of_ok found]
    exact ⟨List.forall_mem_append.2 ⟨within, withinNext⟩, behindNext⟩
  | @stopInside _ length contents c stops error fits inside failed unread ih =>
    have room := placed.offset_add_le fits
    rw [delimited_of_error failed]
    exact ⟨List.forall_mem_cons.2 ⟨⟨rfl, placed, room⟩, (ih (placed.narrow fits)).1⟩, .error _⟩
  | @delimited _ length contents c c' stops a fits inside found unread ih =>
    have room := placed.offset_add_le fits
    obtain ⟨within, behind⟩ := ih (placed.narrow fits)
    -- the contents end within their limit, so within the one that is restored
    obtain ⟨placed', sameBytes, sameLimit⟩ := behind _ found
    dsimp only at placed' sameBytes sameLimit
    refine ⟨List.forall_mem_cons.2 ⟨⟨rfl, placed, room⟩, List.forall_mem_append.2 ⟨within, ?_⟩⟩, ?_⟩
    · rw [← sameBytes]
      exact unmoved c' placed'
    · rw [delimited_of_ok found]
      split
      · exact .error _
      · refine .ok ⟨⟨?_, sameBytes ▸ placed.2⟩, sameBytes, rfl⟩
        exact Nat.le_trans placed'.1 (sameLimit ▸ room)

end Visits

end Reader

end PlanCompiler.Wire
