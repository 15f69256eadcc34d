import PlanCompiler.Proofs.Plan.Rejection
import PlanCompiler.Proofs.Plan.Wire.Bounds

/-!
# Decoding is safe

Decoding any bytes stays within them. The reader has a run over every buffer, and no run leaves the
buffer or the body of the node that is being read. The table of the places of the nodes has an entry
for the node that validation rejects, and every error is reported within the buffer or at its end.

## Main results

* `Plan.decode_isSafe`: all of this for every buffer.
-/

namespace PlanCompiler

/-- A buffer that is read to its end has nodes. -/
theorem Wire.ne_nil_of_nodes_start {buffer : List UInt8} {database : String}
    {placed : List (Nat × Node)} {c : Cursor}
    (read : Reader.nodes (Cursor.start buffer) = .ok ((database, placed), c)) :
    placed.map (·.2) ≠ [] :=
  (nodes_start_eq_ok_iff.1 read).1.nonempty

namespace Plan

/-- The error of nodes that are no plan is reported at the place of the node at fault, which the
table of places has. -/
theorem decode_eq_error_of_ofNodes {buffer : List UInt8} {database : String}
    {placed : List (Nat × Node)} {c : Wire.Cursor} {error : ValidationError}
    (read : Wire.Reader.nodes (Wire.Cursor.start buffer) = .ok ((database, placed), c))
    (rejected : Plan.ofNodes database (placed.map (·.2)) = .error error) :
    ∃ inside : error.node < placed.length,
      Plan.decode buffer =
        .error { offset := placed[error.node].1, fault := .invalid error.fault } := by
  have inside : error.node < placed.length := by
    rw [← List.length_map (·.2)]
    exact lt_length_of_validate_eq_error (Wire.ne_nil_of_nodes_start read)
      (ofNodes_eq_error_iff.1 rejected)
  refine ⟨inside, ?_⟩
  rw [decode, StateT.run, read]
  show (Plan.ofNodes database (placed.map (·.2))).mapError _ = _
  rw [rejected]
  simp [Except.mapError, inside]

/-- Decoding is safe on any bytes. The reader has a run: every node body it sets apart fits into the
bytes that remain. At each stop of any run the position is not beyond the limit, the limit not
beyond the end of the buffer, and the bytes that are taken lie before the limit. If the nodes are
rejected, the place of the node at fault is known and reported. And every error is reported at a
position that is not beyond the end of the buffer. -/
theorem decode_isSafe (buffer : List UInt8) :
    (∃ stops, Wire.Reader.nodes.Visits (Wire.Cursor.start buffer) stops) ∧
      (∀ stops, Wire.Reader.nodes.Visits (Wire.Cursor.start buffer) stops →
        ∀ stop ∈ stops, stop.cursor.bytes = buffer.toArray ∧ stop.InRange) ∧
      (∀ database placed c error,
        Wire.Reader.nodes (Wire.Cursor.start buffer) = .ok ((database, placed), c) →
        Plan.ofNodes database (placed.map (·.2)) = .error error →
        ∃ inside : error.node < placed.length,
          Plan.decode buffer =
            .error { offset := placed[error.node].1, fault := .invalid error.fault }) ∧
      ∀ error, Plan.decode buffer = .error error → error.offset ≤ buffer.length := by
  have placed := Wire.Cursor.wellPlaced_start buffer
  exact ⟨(Wire.Reader.staysIn_nodes _ placed rfl).1, fun stops visits => (visits.inRange placed).1,
    fun _ _ _ _ => decode_eq_error_of_ofNodes, fun _ => offset_le_of_decode_eq_error⟩

/-- A buffer with three nodes that are no plan. -/
theorem decode_isSafe_unreadTable :
    (∃ stops, Wire.Reader.nodes.Visits
        (Wire.Cursor.start (Wire.encodeNodes "/data" unreadTable)) stops ∧
      ∀ stop ∈ stops, stop.cursor.bytes = (Wire.encodeNodes "/data" unreadTable).toArray ∧
        stop.InRange) ∧
      ∃ error, Plan.decode (Wire.encodeNodes "/data" unreadTable) = .error error ∧
        error.fault = .invalid (.consumed 0) ∧
        error.offset ≤ (Wire.encodeNodes "/data" unreadTable).length := by
  have ⟨⟨stops, visits⟩, within, located, bounded⟩ :=
    decode_isSafe (Wire.encodeNodes "/data" unreadTable)
  obtain ⟨c, read⟩ := Wire.exists_nodes_encodeNodes hasForm_unreadTable
  obtain ⟨_, rejected⟩ := located _ _ _ ⟨2, .consumed 0⟩ read (by
    rw [Wire.map_snd_placedFrom]
    exact ofNodes_eq_error_iff.2 rfl)
  exact ⟨⟨stops, visits, within stops visits⟩, _, rejected, rfl, bounded _ rejected⟩

end Plan

end PlanCompiler
