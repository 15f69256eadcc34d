import PlanCompiler.Plan.Wire.Cursor
import PlanCompiler.Plan.Wire.Writer
import PlanCompiler.Proofs.Outcome

/-!
# What readers of binary plans recognise

A format is a relation between a position, a value, the bytes that stand for the value and the
bytes that follow them up to the limit. A reader recognises a format if, from every well-placed
cursor, it yields a value exactly when such bytes are ahead, and then stops behind them. The
position is for readers that report where something stands, and the bytes that follow are for those
that compare a count with what is left.

Formats compose as readers do, so that one statement about a reader says both what it accepts
and that it accepts nothing else.

## Main definitions

* `Cursor.Over`: some bytes lie between two cursors;
* `Reader.Recognises`: a reader recognises a format;
* `Reader.Each`: the format of a list of elements one after the other.

## Main results

* `Reader.Recognises.bind`, `Reader.Recognises.replicate`: formats of composed readers;
* `Reader.recognises_word`, `Reader.recognises_count`, `Reader.recognises_string`: formats of the
  primitive readers;
* `Reader.Each.iff_flatMap`: lists of elements with a fixed encoding each.
-/

namespace PlanCompiler.Wire

/-! ## Cursors -/

namespace Cursor

/-- The bytes lie ahead of one cursor and the other cursor stands behind them. -/
def Over (c : Cursor) (bytes : List UInt8) (c' : Cursor) : Prop :=
  bytes <+: c.rest ∧ c' = c.advance bytes.length

/-- Advancing drops the bytes that are passed. -/
theorem rest_advance (c : Cursor) (n : Nat) : (c.advance n).rest = c.rest.drop n := by
  simp only [rest, advance, Array.toList_extract, List.extract_eq_take_drop, List.drop_take,
    List.drop_drop]
  rw [Nat.sub_add_eq]

/-- Advancing by no bytes stays in place. -/
@[simp]
theorem advance_zero (c : Cursor) : c.advance 0 = c := rfl

/-- Only the same cursor is behind no bytes. -/
theorem over_nil {c c' : Cursor} : c.Over [] c' ↔ c' = c := by
  simp [Over]

/-- The bytes in between are ahead, in front of what is left at the end. -/
theorem Over.rest {c c' : Cursor} {bytes : List UInt8} (h : c.Over bytes c') :
    c.rest = bytes ++ c'.rest := by
  obtain ⟨⟨after, split⟩, rfl⟩ := h
  rw [rest_advance, ← split, List.drop_left]

/-- A run of bytes is passed over in two parts. -/
theorem over_append {c c'' : Cursor} {xs ys : List UInt8} :
    c.Over (xs ++ ys) c'' ↔ ∃ c', c.Over xs c' ∧ c'.Over ys c'' := by
  constructor
  · rintro ⟨⟨after, split⟩, rfl⟩
    refine ⟨c.advance xs.length, ⟨⟨ys ++ after, by rw [← split, List.append_assoc]⟩, rfl⟩, ?_, ?_⟩
    · rw [rest_advance, ← split, List.append_assoc, List.drop_left]
      exact List.prefix_append ys after
    · simp [advance, Nat.add_assoc]
  · rintro ⟨c', first, ⟨⟨after, split⟩, rfl⟩⟩
    refine ⟨⟨after, ?_⟩, ?_⟩
    · rw [first.rest, ← split, List.append_assoc]
    · rw [first.2]
      simp [advance, Nat.add_assoc]

/-- The offset grows by the number of bytes passed over. -/
theorem Over.offset {c c' : Cursor} {bytes : List UInt8} (h : c.Over bytes c') :
    c'.offset = c.offset + bytes.length := by
  rw [h.2]
  rfl

/-- A cursor stays well placed when it passes over bytes that are ahead. -/
theorem Over.wellPlaced {c c' : Cursor} {bytes : List UInt8} (h : c.Over bytes c')
    (placed : c.WellPlaced) : c'.WellPlaced := by
  have fits := h.1.length_le
  rw [length_rest placed, remaining] at fits
  -- the bytes lie between the position and the limit
  obtain ⟨-, rfl⟩ := h
  have := placed.1
  exact ⟨by simp only [advance]; omega, placed.2⟩

end Cursor

/-! ## Readers -/

namespace Reader

variable {α β : Type}

/-- A reader recognises a format at a cursor. -/
def RecognisesAt (c : Cursor) (reader : Reader α)
    (format : Nat → α → List UInt8 → List UInt8 → Prop) : Prop :=
  ∀ a c', reader c = .ok (a, c') ↔ ∃ bytes, format c.offset a bytes c'.rest ∧ c.Over bytes c'

/-- A reader recognises a format: from every well-placed cursor it yields a value exactly if
bytes for it are ahead. -/
def Recognises (reader : Reader α) (format : Nat → α → List UInt8 → List UInt8 → Prop) : Prop :=
  ∀ c : Cursor, c.WellPlaced → RecognisesAt c reader format

variable {reader : Reader α} {format format' : Nat → α → List UInt8 → List UInt8 → Prop}
  {next : α → Reader β} {G : α → Nat → β → List UInt8 → List UInt8 → Prop}

/-- A sequence succeeds exactly if its steps do, one after the other. -/
theorem bind_apply_eq_ok_iff {c c'' : Cursor} {b : β} :
    (reader >>= next) c = .ok (b, c'') ↔
      ∃ a c', reader c = .ok (a, c') ∧ next a c' = .ok (b, c'') := by
  change (reader c >>= fun result => next result.1 result.2) = .ok (b, c'') ↔ _
  rw [bind_eq_ok_iff, Prod.exists]

/-- What a reader recognises may be described by an equivalent format. -/
theorem RecognisesAt.congr {c : Cursor} (h : RecognisesAt c reader format)
    (same : ∀ start a bytes rest, format start a bytes rest ↔ format' start a bytes rest) :
    RecognisesAt c reader format' := by
  intro a c'
  rw [h a c']
  simp only [same]

/-- What a reader recognises everywhere may be described by an equivalent format. -/
theorem Recognises.congr (h : reader.Recognises format)
    (same : ∀ start a bytes rest, format start a bytes rest ↔ format' start a bytes rest) :
    reader.Recognises format' :=
  fun c placed => (h c placed).congr same

/-- The format of a sequence: the bytes of its steps one after the other. -/
def Then (format : Nat → α → List UInt8 → List UInt8 → Prop)
    (G : α → Nat → β → List UInt8 → List UInt8 → Prop) :
    Nat → β → List UInt8 → List UInt8 → Prop :=
  fun start b bytes rest => ∃ a xs ys, format start a xs (ys ++ rest) ∧
    G a (start + xs.length) b ys rest ∧ bytes = xs ++ ys

/-- A sequence recognises its formats in a row; the second step may know that the first succeeded.
-/
theorem RecognisesAt.bind {c : Cursor} (h : RecognisesAt c reader format)
    (hn : ∀ a c', reader c = .ok (a, c') → RecognisesAt c' (next a) (G a)) :
    RecognisesAt c (reader >>= next) (Then format G) := by
  intro b c''
  rw [bind_apply_eq_ok_iff]
  constructor
  · rintro ⟨a, c', first, second⟩
    -- what follows the first bytes are the second ones, and then what follows both
    obtain ⟨xs, spelled, passed⟩ := (h a c').1 first
    obtain ⟨ys, spelledNext, passedNext⟩ := (hn a c' first b c'').1 second
    refine ⟨xs ++ ys, ⟨a, xs, ys, ?_, ?_, rfl⟩, Cursor.over_append.2 ⟨c', passed, passedNext⟩⟩
    · rwa [← passedNext.rest]
    · rwa [← passed.offset]
  · rintro ⟨bytes, ⟨a, xs, ys, spelled, spelledNext, rfl⟩, passed⟩
    obtain ⟨c', passed, passedNext⟩ := Cursor.over_append.1 passed
    rw [← passedNext.rest] at spelled
    rw [← passed.offset] at spelledNext
    have first := (h a c').2 ⟨xs, spelled, passed⟩
    exact ⟨a, c', first, (hn a c' first b c'').2 ⟨ys, spelledNext, passedNext⟩⟩

/-- A sequence recognises its formats in a row. -/
theorem Recognises.bind (h : reader.Recognises format)
    (hn : ∀ a, (next a).Recognises (G a)) :
    (reader >>= next).Recognises (Then format G) := by
  intro c placed
  refine (h c placed).bind fun a c' first => hn a c' ?_
  -- readers only move forward, and never beyond the limit
  obtain ⟨bytes, -, passed⟩ := (h c placed a c').1 first
  exact passed.wellPlaced placed

/-- A result without reading recognises no bytes. -/
theorem recognises_pure (a : α) :
    (pure a : Reader α).Recognises fun _ b bytes _ => b = a ∧ bytes = [] := by
  intro c _ b c'
  change Except.ok (a, c) = Except.ok (b, c') ↔ _
  simp only [Except.ok.injEq, Prod.mk.injEq]
  constructor
  · rintro ⟨rfl, rfl⟩
    exact ⟨[], ⟨rfl, rfl⟩, Cursor.over_nil.2 rfl⟩
  · rintro ⟨bytes, ⟨rfl, rfl⟩, passed⟩
    exact ⟨rfl, (Cursor.over_nil.1 passed).symm⟩

/-- A failure recognises nothing. -/
theorem recognises_fail (offset : Nat) (fault : DecodeFault) :
    (fail offset fault : Reader α).Recognises fun _ _ _ _ => False := by
  intro c _ b c'
  simp [fail]

/-- A check between two steps. -/
theorem Recognises.unless {p : Prop} [Decidable p] {offset : Nat} {fault : DecodeFault}
    {go : Reader α} (h : go.Recognises format) :
    (if p then fail offset fault >>= fun _ : PUnit => go else go).Recognises
      fun start a bytes rest => ¬ p ∧ format start a bytes rest := by
  split
  · rename_i bad
    refine ((recognises_fail offset fault).bind (fun _ => h)).congr ?_
    simp [Then, bad]
  · rename_i good
    exact h.congr (by simp [good])

/-- The offset is read without passing over bytes. -/
theorem recognises_here :
    here.Recognises fun start a bytes _ => a = start ∧ bytes = [] := by
  intro c _ a c'
  simp only [here, Except.ok.injEq, Prod.mk.injEq]
  constructor
  · rintro ⟨rfl, rfl⟩
    exact ⟨[], ⟨rfl, rfl⟩, Cursor.over_nil.2 rfl⟩
  · rintro ⟨bytes, ⟨rfl, rfl⟩, passed⟩
    exact ⟨rfl, (Cursor.over_nil.1 passed).symm⟩

/-- The number of bytes left is read without passing over them. -/
theorem recognises_remaining :
    remaining.Recognises fun _ n bytes rest => n = rest.length ∧ bytes = [] := by
  intro c placed n c'
  simp only [remaining, Except.ok.injEq, Prod.mk.injEq, ← Cursor.length_rest placed]
  constructor
  · rintro ⟨rfl, rfl⟩
    exact ⟨[], ⟨rfl, rfl⟩, Cursor.over_nil.2 rfl⟩
  · rintro ⟨bytes, ⟨rfl, rfl⟩, passed⟩
    obtain rfl := Cursor.over_nil.1 passed
    exact ⟨rfl, rfl⟩

/-- A result, if nothing is left. -/
def atEnd (b : β) : Reader β := do
  let left ← remaining
  if left ≠ 0 then fail (← here) (.trailing left)
  return b

/-- The end is recognised where no bytes are left. -/
theorem recognises_atEnd (b : β) :
    (atEnd b).Recognises fun _ b' bytes rest => b' = b ∧ bytes = [] ∧ rest = [] := by
  refine (recognises_remaining.bind (G := fun left _ b' bytes _ => left = 0 ∧ b' = b ∧ bytes = [])
    fun left => ?_).congr ?_
  · -- the check fails unless the position is the limit
    split
    · rename_i more
      refine (recognises_here.bind fun offset => (recognises_fail offset _).bind
        fun _ => recognises_pure b).congr ?_
      simp [Then, more]
    · rename_i done
      exact (recognises_pure b).congr (by simp [not_not.1 done])
  · intro start b' bytes rest
    simp [Then, and_left_comm]

/-- If something is left, its first byte is where the fault is. -/
theorem atEnd_eq_error {c : Cursor} (placed : c.WellPlaced) (more : c.rest ≠ []) (b : β) :
    atEnd b c = .error { offset := c.offset, fault := .trailing c.rest.length } := by
  have left : c.remaining ≠ 0 := by
    rw [← Cursor.length_rest placed]
    exact mt List.length_eq_zero_iff.1 more
  rw [Cursor.length_rest placed]
  change (if c.remaining ≠ 0 then _ else _ : Reader β) c = _
  rw [if_pos left]
  rfl

/-- A number of bytes is read as they are. -/
theorem recognises_take (n : Nat) (what : String) :
    (take n what).Recognises fun _ a bytes _ => a = bytes ∧ bytes.length = n := by
  intro c placed a c'
  -- the bytes that are taken off are those at the front of the rest, if there are enough
  have ahead : (c.bytes.extract c.offset (c.offset + n)).toList = c.rest.take n ∨
      c.remaining < n := by
    rcases Nat.lt_or_ge c.remaining n with short | enough
    · exact .inr short
    · left
      simp only [Cursor.rest, Array.toList_extract, List.extract_eq_take_drop, List.take_take]
      rw [Cursor.remaining] at enough
      congr 1
      omega
  rw [← Cursor.length_rest placed] at ahead
  simp only [take, ← Cursor.length_rest placed]
  constructor
  · intro h
    split at h
    · cases h
    · rename_i enough
      have split := ahead.resolve_right enough
      simp only [Except.ok.injEq, Prod.mk.injEq, split] at h
      obtain ⟨rfl, rfl⟩ := h
      have length : (c.rest.take n).length = n := by
        rw [List.length_take]
        omega
      exact ⟨_, ⟨rfl, length⟩, List.take_prefix n c.rest, by rw [length]⟩
  · rintro ⟨bytes, ⟨rfl, rfl⟩, ⟨after, split⟩, rfl⟩
    have enough : ¬ c.rest.length < a.length := by
      rw [← split, List.length_append]
      omega
    rw [if_neg enough, ahead.resolve_right enough, ← split, List.take_left]

/-! ### Numbers and strings -/

/-- A number is recognised by its bytes from the least on. -/
theorem recognises_number (size : Nat) (what : String) :
    (number size what).Recognises
      fun _ n bytes _ => n < 256 ^ size ∧ bytes = littleEndian size n := by
  refine ((recognises_take size what).bind fun _ => recognises_pure _).congr ?_
  rintro start n bytes rest
  constructor
  · rintro ⟨read, xs, ys, ⟨rfl, rfl⟩, ⟨rfl, rfl⟩, rfl⟩
    rw [List.append_nil, littleEndian_ofLittleEndian]
    exact ⟨ofLittleEndian_lt read, rfl⟩
  · rintro ⟨small, rfl⟩
    refine ⟨_, _, [], ⟨rfl, length_littleEndian size n⟩, ⟨?_, rfl⟩, (List.append_nil _).symm⟩
    rw [ofLittleEndian_littleEndian]
    exact (Nat.mod_eq_of_lt small).symm

/-- A byte is recognised by itself. -/
theorem recognises_byte (what : String) :
    (byte what).Recognises fun _ b bytes _ => bytes = [b] := by
  refine ((recognises_number 1 what).bind fun _ => recognises_pure _).congr ?_
  rintro start b bytes rest
  constructor
  · rintro ⟨n, xs, ys, ⟨-, rfl⟩, ⟨rfl, rfl⟩, rfl⟩
    rfl
  · rintro rfl
    exact ⟨b.toNat, [b], [], ⟨b.toNat_lt, by simp [littleEndian]⟩, ⟨by simp, rfl⟩, rfl⟩

/-- A word is recognised by its four bytes. -/
theorem recognises_word (what : String) :
    (word what).Recognises fun _ w bytes _ => bytes = Wire.word w.toNat := by
  refine ((recognises_number 4 what).bind fun _ => recognises_pure _).congr ?_
  rintro start w bytes rest
  constructor
  · rintro ⟨n, xs, ys, ⟨small, rfl⟩, ⟨rfl, rfl⟩, rfl⟩
    -- four bytes hold no more than a number of 32 bits
    have same : n % 2 ^ 32 = n := Nat.mod_eq_of_lt small
    rw [List.append_nil, UInt32.toNat_ofNat', same, Wire.word]
  · rintro rfl
    exact ⟨w.toNat, _, [], ⟨w.toNat_lt, rfl⟩, ⟨by simp, rfl⟩, (List.append_nil _).symm⟩

/-- A number of 64 bits, of which a value is made. -/
theorem recognises_long (what : String) (f : UInt64 → α) :
    (number 8 what >>= fun n => pure (f (UInt64.ofNat n))).Recognises
      fun _ a bytes _ => ∃ w : UInt64, a = f w ∧ bytes = littleEndian 8 w.toNat := by
  refine ((recognises_number 8 what).bind fun _ => recognises_pure _).congr ?_
  rintro start a bytes rest
  constructor
  · rintro ⟨n, xs, ys, ⟨small, rfl⟩, ⟨rfl, rfl⟩, rfl⟩
    refine ⟨_, rfl, ?_⟩
    -- eight bytes hold no more than a number of 64 bits
    have same : n % 2 ^ 64 = n := Nat.mod_eq_of_lt small
    rw [List.append_nil, UInt64.toNat_ofNat', same]
  · rintro ⟨w, rfl, rfl⟩
    exact ⟨w.toNat, _, [], ⟨w.toNat_lt, rfl⟩, ⟨by simp, rfl⟩, (List.append_nil _).symm⟩

/-- A count is recognised if so many elements of the least size fit into what is left. -/
theorem recognises_count (what : String) (least : Nat) :
    (count what least).Recognises fun _ n bytes rest =>
      n < 2 ^ 32 ∧ n * least ≤ rest.length ∧ bytes = Wire.word n := by
  refine (recognises_here.bind fun countAt => (recognises_number 4 what).bind fun n =>
    recognises_remaining.bind fun left => (recognises_pure n).unless).congr ?_
  intro start n bytes rest
  simp [Then, and_assoc, Wire.word]

/-- Bytes are a text exactly if they are its UTF-8 encoding. -/
theorem fromUTF8?_eq_some_iff {bytes : List UInt8} {s : String} :
    String.fromUTF8? ⟨bytes.toArray⟩ = some s ↔ bytes = s.toUTF8.data.toList := by
  rw [String.fromUTF8?]
  constructor
  · intro h
    split at h
    · obtain rfl := Option.some.inj h
      rfl
    · cases h
  · rintro rfl
    exact dif_pos s.isValidUTF8

/-- A string is recognised by its length and its bytes. -/
theorem recognises_string (what : String) :
    (string what).Recognises fun _ s bytes _ =>
      s.utf8ByteSize < 2 ^ 32 ∧ bytes = Wire.string s := by
  refine ((recognises_count what 1).bind fun length => recognises_here.bind fun textAt =>
    (recognises_take length what).bind
      (G := fun read _ s bytes _ => read = s.toUTF8.data.toList ∧ bytes = [])
      fun read => ?_).congr ?_
  · simp only [← fromUTF8?_eq_some_iff]
    split
    · rename_i s valid
      exact (recognises_pure s).congr (by simp [valid, eq_comm])
    · rename_i invalid
      exact (recognises_fail _ _).congr (by simp [invalid])
  · intro start s bytes rest
    simp [Then, and_assoc, Wire.string]

/-! ### Lists of elements -/

/-- The format of a list of elements one after the other. -/
def Each (format : Nat → α → List UInt8 → List UInt8 → Prop) :
    Nat → List α → List UInt8 → List UInt8 → Prop
  | _, [], bytes, _ => bytes = []
  | start, a :: as, bytes, rest => ∃ xs ys, format start a xs (ys ++ rest) ∧
      Each format (start + xs.length) as ys rest ∧ bytes = xs ++ ys

/-- Elements one after the other are recognised by the format of each. -/
theorem Recognises.replicate (h : reader.Recognises format) (n : Nat) :
    (replicate reader n).Recognises
      fun start as bytes rest => as.length = n ∧ Each format start as bytes rest := by
  induction n with
  | zero =>
    refine (recognises_pure []).congr fun start as bytes rest => ?_
    cases as <;> simp [Each]
  | succ n ih =>
    refine (h.bind fun first => ih.bind fun others => recognises_pure _).congr ?_
    intro start as bytes rest
    cases as with
    | nil => simp [Then]
    | cons a as =>
      simp only [Each, List.length_cons, Nat.add_right_cancel_iff]
      -- the bytes of the first element in front of those of the others
      constructor
      · rintro ⟨_, xs, _, first, ⟨_, ys, _, ⟨length, others⟩, ⟨whole, rfl⟩, rfl⟩, rfl⟩
        obtain ⟨rfl, rfl⟩ := List.cons.inj whole
        rw [List.append_nil] at *
        exact ⟨length, xs, ys, first, others, rfl⟩
      · rintro ⟨length, xs, ys, first, others, rfl⟩
        exact ⟨a, xs, ys, first, ⟨as, ys, [], ⟨length, others⟩, ⟨rfl, rfl⟩, by simp⟩, rfl⟩

/-- Elements with a fixed encoding each. -/
theorem Each.iff_flatMap {P : α → Prop} {encode : α → List UInt8} {start : Nat} {as : List α}
    {bytes rest : List UInt8} :
    Each (fun _ a bytes _ => P a ∧ bytes = encode a) start as bytes rest ↔
      (∀ a ∈ as, P a) ∧ bytes = as.flatMap encode := by
  induction as generalizing start bytes with
  | nil => simp [Each]
  | cons a as ih => simp [Each, ih, and_assoc]

/-- So many elements take at least as many times the least size. -/
theorem length_mul_le_length_flatMap {encode : α → List UInt8} {least : Nat} {as : List α}
    (long : ∀ a ∈ as, least ≤ (encode a).length) :
    as.length * least ≤ (as.flatMap encode).length := by
  induction as with
  | nil => simp
  | cons a as ih =>
    obtain ⟨first, others⟩ := List.forall_mem_cons.1 long
    have := ih others
    rw [List.length_cons, List.flatMap_cons, List.length_append, Nat.succ_mul]
    omega

/-- A list: its length and its elements. The count never exceeds the bytes that are left, since
every element is at least as long as the reader of the count supposes. -/
theorem Recognises.counted {P : α → Prop} {encode : α → List UInt8} {what : String} {least : Nat}
    (h : reader.Recognises fun _ a bytes _ => P a ∧ bytes = encode a)
    (long : ∀ a, P a → least ≤ (encode a).length) :
    (count what least >>= fun n => Reader.replicate reader n).Recognises fun _ as bytes _ =>
      as.length < 2 ^ 32 ∧ (∀ a ∈ as, P a) ∧ bytes = sequence encode as := by
  refine ((recognises_count what least).bind fun n => h.replicate n).congr ?_
  intro start as bytes rest
  simp only [Then, Each.iff_flatMap]
  constructor
  · rintro ⟨n, xs, ys, ⟨small, -, rfl⟩, ⟨rfl, all, rfl⟩, rfl⟩
    exact ⟨small, all, rfl⟩
  · rintro ⟨small, all, rfl⟩
    refine ⟨_, _, _, ⟨small, ?_, rfl⟩, ⟨rfl, all, rfl⟩, rfl⟩
    have enough := length_mul_le_length_flatMap fun a member => long a (all a member)
    rw [List.length_append]
    omega

/-- An encoding without a condition on the values. -/
theorem Recognises.of_every {encode : α → List UInt8}
    (h : reader.Recognises fun _ a bytes _ => bytes = encode a) :
    reader.Recognises fun _ a bytes _ => True ∧ bytes = encode a :=
  h.congr (by simp)

/-- A count with so many elements behind it is recognised, and what follows after them. -/
theorem Recognises.counted_bind {P : α → Prop} {encode : α → List UInt8} {what : String}
    {least : Nat} {next : List α → Reader β} {G : List α → Nat → β → List UInt8 → List UInt8 → Prop}
    (h : reader.Recognises fun _ a bytes _ => P a ∧ bytes = encode a)
    (long : ∀ a, P a → least ≤ (encode a).length) (hn : ∀ as, (next as).Recognises (G as)) :
    (count what least >>= fun n => Reader.replicate reader n >>= next).Recognises
      (Then (fun _ as bytes _ =>
        as.length < 2 ^ 32 ∧ (∀ a ∈ as, P a) ∧ bytes = sequence encode as) G) := by
  simpa only [bind_assoc] using (h.counted long).bind hn

/-- A part of a given length is read to its end. -/
theorem recognisesAt_delimited {c : Cursor} (placed : c.WellPlaced) (h : reader.Recognises format)
    {length : Nat} (fits : length ≤ c.rest.length) (unread : Nat → α → DecodeFault) :
    RecognisesAt c (delimited length reader unread)
      fun start a bytes _ => bytes.length = length ∧ format start a bytes [] := by
  have room : c.offset + length ≤ c.limit := by
    rw [Cursor.length_rest placed, Cursor.remaining] at fits
    have := placed.1
    omega
  -- the part is read by a cursor whose limit is the end of the part
  let inner : Cursor := { c with limit := c.offset + length }
  have innerPlaced : inner.WellPlaced := ⟨Nat.le_add_right _ _, Nat.le_trans room placed.2⟩
  have innerRest : inner.rest = c.rest.take length := by
    simp only [inner, Cursor.rest, Array.toList_extract, List.extract_eq_take_drop, List.take_take]
    congr 1
    omega
  intro a c'
  simp only [delimited, bind_eq_ok_iff, Prod.exists]
  constructor
  · rintro ⟨value, stop, read, result⟩
    split at result
    · cases result
    · rename_i finished
      simp only [Except.ok.injEq, Prod.mk.injEq] at result
      obtain ⟨rfl, rfl⟩ := result
      obtain ⟨bytes, spelled, passed⟩ := (h inner innerPlaced value stop).1 read
      -- the reader of the part has to come to its limit
      have done : stop.rest = [] := by
        rw [← List.length_eq_zero_iff, Cursor.length_rest (passed.wellPlaced innerPlaced)]
        exact Decidable.not_not.1 finished
      have whole := passed.rest
      rw [done, List.append_nil, innerRest] at whole
      refine ⟨bytes, ⟨?_, done ▸ spelled⟩, whole ▸ List.take_prefix length c.rest, ?_⟩
      · rw [← whole, List.length_take]
        omega
      · rw [passed.2]
        rfl
  · rintro ⟨bytes, ⟨rfl, spelled⟩, ahead, rfl⟩
    have passed : inner.Over bytes (inner.advance bytes.length) := by
      refine ⟨?_, rfl⟩
      rw [innerRest, List.prefix_take_iff]
      exact ⟨ahead, Nat.le_refl _⟩
    have done : (inner.advance bytes.length).rest = [] := by
      rw [Cursor.rest_advance, innerRest, List.drop_take, Nat.sub_self, List.take_zero]
    refine ⟨a, _, (h inner innerPlaced a _).2 ⟨bytes, by rwa [done], passed⟩, ?_⟩
    refine if_neg ?_
    rw [← Cursor.length_rest (passed.wellPlaced innerPlaced), done]
    exact not_not.2 rfl

/-- A part of a given length, which is compared with what is left before it is read. -/
theorem Recognises.delimited (h : reader.Recognises format) {length offset : Nat}
    {tooLong : Nat → DecodeFault} {unread : Nat → α → DecodeFault}
    (hn : ∀ a, (next a).Recognises (G a)) :
    (remaining >>= fun left =>
      if left < length then
        fail offset (tooLong left) >>= fun _ : PUnit =>
          Reader.delimited length reader unread >>= next
      else Reader.delimited length reader unread >>= next).Recognises
      (Then (fun start a bytes _ => bytes.length = length ∧ format start a bytes []) G) := by
  intro c placed
  refine ((recognises_remaining c placed).bind (G := fun left start b bytes rest =>
    ¬ left < length ∧ Then (fun start a bytes _ => bytes.length = length ∧ format start a bytes [])
      G start b bytes rest) fun left c' read => ?_).congr ?_
  · -- the number of bytes that are left is found without reading one
    obtain ⟨_, ⟨rfl, rfl⟩, passed⟩ := (recognises_remaining c placed left c').1 read
    obtain rfl := Cursor.over_nil.1 passed
    split
    · rename_i short
      refine ((recognises_fail offset _ c' placed).bind (G := fun _ _ _ _ _ => False)
        fun _ _ impossible => by cases impossible).congr ?_
      simp [Then, short]
    · rename_i fits
      refine ((recognisesAt_delimited placed h (Nat.le_of_not_lt fits) unread).bind
        fun a c'' first => hn a c'' ?_).congr ?_
      · obtain ⟨bytes, -, passed⟩ :=
          (recognisesAt_delimited placed h (Nat.le_of_not_lt fits) unread a c'').1 first
        exact passed.wellPlaced placed
      · simp [fits]
  · intro start b bytes rest
    constructor
    · rintro ⟨left, _, bytes, ⟨rfl, rfl⟩, ⟨-, spelled⟩, rfl⟩
      exact spelled
    · -- a part that is there is not longer than what is left
      rintro ⟨a, xs, ys, ⟨rfl, spelled⟩, spelledNext, rfl⟩
      refine ⟨_, [], _, ⟨rfl, rfl⟩, ⟨?_, a, xs, ys, ⟨rfl, spelled⟩, spelledNext, rfl⟩, rfl⟩
      simp only [List.length_append]
      omega

end Reader

end PlanCompiler.Wire
