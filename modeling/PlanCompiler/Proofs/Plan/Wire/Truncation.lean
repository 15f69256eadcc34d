import PlanCompiler.Proofs.Plan.Wire.Bounds
import PlanCompiler.Proofs.Plan.Wire.RoundTrip

/-!
# Truncated and prolonged buffers

A buffer that decodes to a plan does so neither with its end cut off nor with anything behind it.
The header says how many nodes there are and each node how long it is, so that the reader comes to
the end of the plan whatever follows, and then finds that something does.

## Main results

* `Wire.nodes_start_append`: the reader stops where the encoding of a plan ends;
* `Plan.decode_encode_append`: what is reported behind the end of a plan;
* `Plan.error_of_truncated_of_prolonged`: truncated and prolonged buffers are rejected.
-/

namespace PlanCompiler

namespace Wire

/-- The reader comes to the end of an encoding whatever follows, and reports that something
does. -/
theorem nodes_start_append {database : String} {nodes : List Node} (form : HasForm database nodes)
    {suffix : List UInt8} (more : suffix ≠ []) :
    Reader.nodes (Cursor.start (encodeNodes database nodes ++ suffix)) =
      .error
        { offset := (encodeNodes database nodes).length, fault := .trailing suffix.length } := by
  let buffer := encodeNodes database nodes ++ suffix
  let start := (header database nodes.length).length
  let stop := (Cursor.start buffer).advance (encodeNodes database nodes).length
  have passed : (Cursor.start buffer).Over (encodeNodes database nodes) stop :=
    ⟨(Cursor.rest_start buffer).symm ▸ List.prefix_append _ suffix, rfl⟩
  have stopRest : stop.rest = suffix := by
    rw [Cursor.rest_advance, Cursor.rest_start, List.drop_left]
  have placed := Cursor.wellPlaced_start buffer
  -- the counts in front of the nodes fit into what is left also if more is left
  have read : Reader.contents (Cursor.start buffer) =
      .ok ((database, placedFrom start nodes), stop) := by
    refine (Reader.recognises_contents _ placed _ _).2 ⟨_, ?_, passed⟩
    dsimp only
    rw [map_snd_placedFrom, length_placedFrom, Cursor.start, Nat.zero_add]
    exact ⟨form, rfl, rfl⟩
  rw [Reader.nodes_eq_bind]
  change Reader.contents (Cursor.start buffer) >>=
    (fun result => Reader.atEnd result.1 result.2) = _
  rw [read]
  change Reader.atEnd _ stop = _
  rw [Reader.atEnd_eq_error (passed.wellPlaced placed) (stopRest ▸ more), passed.offset, stopRest,
    Cursor.start, Nat.zero_add]

end Wire

namespace Plan

/-- What stands behind an encoded plan is reported at the place where the plan ends. -/
theorem decode_encode_append {plan : Plan} (form : Wire.HasForm plan.database plan.nodes)
    {suffix : List UInt8} (more : suffix ≠ []) :
    Plan.decode (plan.encode ++ suffix) =
      .error { offset := plan.encode.length, fault := .trailing suffix.length } := by
  rw [Plan.decode, StateT.run, Plan.encode, Wire.nodes_start_append form more]
  rfl

/-- A buffer in front of an encoded plan is not accepted: what is left of the plan would have been
reported as trailing. -/
theorem eq_encode_of_decode_eq_ok {plan other : Plan} {front : List UInt8}
    (form : Wire.HasForm plan.database plan.nodes) (isFront : front <+: plan.encode)
    (decoded : Plan.decode front = .ok other) : front = plan.encode := by
  obtain ⟨rest, split⟩ := isFront
  obtain ⟨otherForm, rfl⟩ := decode_eq_ok_iff.1 decoded
  rcases eq_or_ne rest [] with rfl | more
  · rw [← split, List.append_nil]
  · have whole : Plan.decode plan.encode = .ok plan := decode_eq_ok_iff.2 ⟨form, rfl⟩
    rw [← split, decode_encode_append otherForm more] at whole
    cases whole

/-- A buffer that decodes to a plan is rejected once it is cut off, within what is left of it, and
once anything is put behind it, at the place where it ended. Hence none of the buffers that decode
to a plan is in front of another one. -/
theorem error_of_truncated_of_prolonged {buffer : List UInt8} {plan : Plan}
    (decoded : Plan.decode buffer = .ok plan) :
    (∀ front, front <+: buffer → front ≠ buffer →
      ∃ error, Plan.decode front = .error error ∧ error.offset ≤ front.length) ∧
    (∀ suffix, suffix ≠ [] →
      ∃ error, Plan.decode (buffer ++ suffix) = .error error ∧ error.offset = buffer.length) ∧
    ∀ (other : List UInt8) (twin : Plan), Plan.decode other = .ok twin →
      (other <+: buffer ∨ buffer <+: other) → other = buffer := by
  obtain ⟨form, rfl⟩ := decode_eq_ok_iff.1 decoded
  refine ⟨fun front isFront shorter => ?_, fun suffix more => ?_, fun other twin accepted => ?_⟩
  · cases read : Plan.decode front with
    | error error => exact ⟨error, rfl, offset_le_of_decode_eq_error read⟩
    | ok other => exact absurd (eq_encode_of_decode_eq_ok form isFront read) shorter
  · exact ⟨_, decode_encode_append form more, rfl⟩
  · rintro (isFront | isLonger)
    · exact eq_encode_of_decode_eq_ok form isFront accepted
    · obtain ⟨otherForm, rfl⟩ := decode_eq_ok_iff.1 accepted
      exact (eq_encode_of_decode_eq_ok otherForm isLonger decoded).symm

/-- Without its last byte and with another one behind it, the buffer of a plan with a scan, a
filter and an aggregation is rejected. -/
theorem error_of_truncated_of_prolonged_largeOrders :
    Plan.decode largeOrders.encode = .ok largeOrders ∧
      (∃ error, Plan.decode largeOrders.encode.dropLast = .error error ∧
        error.offset ≤ largeOrders.encode.dropLast.length) ∧
      ∃ error, Plan.decode (largeOrders.encode ++ [0]) = .error error ∧
        error.offset = largeOrders.encode.length :=
  have fits : largeOrders.FitsWords := by constructor <;> decide
  have decoded : Plan.decode largeOrders.encode = .ok largeOrders :=
    decode_eq_ok_iff.2 ⟨largeOrders.hasForm fits, rfl⟩
  have rejected := error_of_truncated_of_prolonged decoded
  ⟨decoded, rejected.1 _ (List.dropLast_prefix _) (fun same => absurd same (by decide)),
    rejected.2.1 [0] (List.cons_ne_nil _ _)⟩

end Plan

end PlanCompiler
