import PlanCompiler.Proofs.Plan.Wire.Grammar

/-!
# Reading and writing binary plans

Reading undoes writing and writing undoes reading, so that a plan has exactly one binary form.

## Main results

* `Plan.decode_eq_ok_iff`: the buffers that decode to a plan;
* `Plan.decode_encode`: reading what was written;
* `Plan.encode_of_decode`: writing what was read.
-/

namespace PlanCompiler

namespace Wire

/-- The buffers that the reader accepts, and what it makes of them. -/
theorem nodes_start_eq_ok_iff {buffer : List UInt8} {database : String}
    {placed : List (Nat × Node)} {c : Cursor} :
    Reader.nodes (Cursor.start buffer) = .ok ((database, placed), c) ↔
      HasForm database (placed.map (·.2)) ∧
        placed = placedFrom (header database placed.length).length (placed.map (·.2)) ∧
        buffer = encodeNodes database (placed.map (·.2)) ∧
        c = (Cursor.start buffer).advance buffer.length := by
  rw [Reader.recognises_nodes _ (Cursor.wellPlaced_start buffer)]
  constructor
  · rintro ⟨bytes, ⟨done, form, places, spelled⟩, passed⟩
    -- the reader stops at the end of the buffer, so that it has read all of it
    have whole := passed.rest
    rw [done, List.append_nil, Cursor.rest_start] at whole
    rw [Cursor.start, Nat.zero_add] at places
    exact ⟨form, places, whole.trans spelled, whole ▸ passed.2⟩
  · rintro ⟨form, places, spelled, rfl⟩
    refine ⟨buffer, ⟨?_, form, ?_, spelled⟩, ?_, rfl⟩
    · rw [Cursor.rest_advance, Cursor.rest_start, List.drop_length]
    · rwa [Cursor.start, Nat.zero_add]
    · exact (Cursor.rest_start buffer).symm ▸ List.prefix_rfl

end Wire

namespace Plan

/-- A buffer decodes to a plan exactly if it is the encoding of the plan and the plan has one. -/
theorem decode_eq_ok_iff {buffer : List UInt8} {plan : Plan} :
    Plan.decode buffer = .ok plan ↔
      Wire.HasForm plan.database plan.nodes ∧ buffer = plan.encode := by
  simp only [decode, StateT.run, bind_eq_ok_iff, mapError_eq_ok_iff, ofNodes_eq_ok_iff,
    Prod.exists, Wire.nodes_start_eq_ok_iff]
  constructor
  · rintro ⟨_, placed, c, ⟨form, -, spelled, -⟩, rfl, nodes⟩
    rw [← nodes] at form spelled
    exact ⟨form, spelled⟩
  · rintro ⟨form, spelled⟩
    let start := (Wire.header plan.database plan.nodes.length).length
    refine ⟨plan.database, Wire.placedFrom start plan.nodes, _, ⟨?_, ?_, ?_, rfl⟩, rfl, ?_⟩
    all_goals rw [Wire.map_snd_placedFrom]
    · exact form
    · rw [Wire.length_placedFrom]
    · exact spelled

/-- Large orders per customer: a plan with a scan, a filter and an aggregation. -/
def largeOrders : Plan where
  database := "/data"
  nodes :=
    [.scan "orders" [⟨0, .int⟩, ⟨3, .float⟩, ⟨5, .text⟩],
      .filter 0 (.junction .and
        [.binary .gt (.column 1) (.float ⟨0x4058C00000000000⟩), .like (.column 2) "%air%"]),
      .aggregate 1 [0] [.count, .sum 1]]
  schemas := [[.int, .float, .text], [.int, .float, .text], [.int, .int, .float]]
  valid := by rfl

/-- Reading a plan that was written gives the plan back. -/
theorem decode_encode (plan : Plan) (fits : plan.FitsWords) :
    Plan.decode plan.encode = .ok plan :=
  decode_eq_ok_iff.2 ⟨plan.hasForm fits, rfl⟩

/-- The plan of large orders is read back from its bytes. -/
theorem decode_encode_largeOrders :
    largeOrders.FitsWords ∧ Plan.decode largeOrders.encode = .ok largeOrders :=
  have fits : largeOrders.FitsWords := by constructor <;> decide
  ⟨fits, decode_encode largeOrders fits⟩

/-- Writing a plan that was read gives the buffer back, so that different buffers never decode to
plans with the same contents. -/
theorem encode_of_decode {buffer : List UInt8} {plan : Plan}
    (decoded : Plan.decode buffer = .ok plan) :
    plan.encode = buffer ∧
      ∀ (other : List UInt8) (twin : Plan), Plan.decode other = .ok twin →
        twin.database = plan.database → twin.nodes = plan.nodes → other = buffer := by
  obtain ⟨-, rfl⟩ := decode_eq_ok_iff.1 decoded
  refine ⟨rfl, fun other twin decodedTwin sameDatabase sameNodes => ?_⟩
  obtain ⟨-, rfl⟩ := decode_eq_ok_iff.1 decodedTwin
  rw [ext_nodes sameDatabase sameNodes]

/-- The bytes of the plan of large orders are the only ones it is read from. -/
theorem encode_of_decode_largeOrders :
    Plan.decode largeOrders.encode = .ok largeOrders ∧
      ∀ (other : List UInt8) (twin : Plan), Plan.decode other = .ok twin →
        twin.database = largeOrders.database → twin.nodes = largeOrders.nodes →
        other = largeOrders.encode :=
  have fits : largeOrders.FitsWords := by constructor <;> decide
  have decoded : Plan.decode largeOrders.encode = .ok largeOrders :=
    decode_eq_ok_iff.2 ⟨largeOrders.hasForm fits, rfl⟩
  ⟨decoded, (encode_of_decode decoded).2⟩

end Plan

end PlanCompiler
