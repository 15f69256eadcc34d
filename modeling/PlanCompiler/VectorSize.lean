/-!
# Batch sizes

Number of rows in a batch of the vectorised stage. Larger and smaller numbers than the allowed
ones are brought into range.
-/

namespace PlanCompiler.VectorSize

/-- The batch size that is used if none is asked for. -/
def standard : Nat := 1024

/-- The largest batch size. -/
def greatest : Nat := 0x100000

/-- The allowed batch size that is nearest to a number. -/
def clamp (n : Nat) : Nat := max 1 (min n greatest)

/-- A number that is allowed stays as it is. -/
theorem clamp_of_le {n : Nat} (low : 1 ≤ n) (high : n ≤ greatest) : clamp n = n := by
  unfold clamp
  omega

end PlanCompiler.VectorSize
