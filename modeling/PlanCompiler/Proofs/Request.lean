import PlanCompiler.Proofs.Outcome
import PlanCompiler.Request

/-!
# Requests as numbers

A request is made from the number of a stage and a mask of flags, or from two signed numbers. Both
ways lead to the same requests: there is one exactly if the number stands for a stage that
understands every flag of the mask, and it has that stage and those flags. A refusal lists the flags
that the stage does not understand, with one exception: a negative number is refused as a whole, and
its refusal lists all of its bits, also those of flags that the stage understands.

## Main definitions

* `Request.ofMask`: the request for the number of a stage and a mask;
* `RequestError.wholesale`: a refusal that lists all flags.

## Main results

* `Stage.unsupported_eq_zero_iff`: a stage understands a mask if it supports all of its flags;
* `Request.ofNumbers_eq`: signed numbers are refused wholesale if they are negative;
* `Request.ofNumbers_agrees`: where the two ways agree.
-/

namespace PlanCompiler

/-! ## Flags that a stage understands -/

/-- Nothing is left of a mask outside of another one if that one covers it. -/
theorem Flags.and_not_eq_zero_iff {a b : UInt32} : b &&& ~~~a = 0 ↔ a &&& b = b := by
  rw [← UInt32.toBitVec_inj, ← UInt32.toBitVec_inj, UInt32.toBitVec_and, UInt32.toBitVec_and,
    UInt32.toBitVec_not]
  -- both sides speak of the bits one by one
  constructor
  · intro outside
    ext i inside
    have bit := congrArg (·[i]) outside
    simp only [BitVec.getElem_and, BitVec.getElem_not] at bit ⊢
    cases hb : b.toBitVec[i] <;> cases ha : a.toBitVec[i] <;> simp_all
  · intro covered
    ext i inside
    have bit := congrArg (·[i]) covered
    simp only [BitVec.getElem_and, BitVec.getElem_not] at bit ⊢
    cases hb : b.toBitVec[i] <;> cases ha : a.toBitVec[i] <;> simp_all

namespace Stage

variable {stage : Stage} {flags : Flags}

/-- No flag is unsupported exactly if all of them are supported. -/
theorem unsupported_eq_zero_iff :
    stage.unsupported flags = ⟨0⟩ ↔ stage.supported.contains flags = true := by
  rw [unsupported, Flags.mk.injEq, Flags.contains, decide_eq_true_iff]
  exact Flags.and_not_eq_zero_iff

/-- Different stages have different numbers. -/
theorem number_injective {other : Stage} (same : stage.number = other.number) : stage = other := by
  revert same
  cases stage <;> cases other <;> decide

/-- A stage is found exactly by its own number. -/
theorem ofNumber_eq_ok_iff {number : Int32} :
    ofNumber number = .ok stage ↔ stage.number = number := by
  unfold ofNumber
  split_ifs with scalar vectorised
  · cases stage <;> simp [scalar, Stage.number]
  · cases stage <;> simp [vectorised, Stage.number]
  · cases stage <;> simp [Ne.symm scalar, Ne.symm vectorised]

/-- A number is refused exactly if no stage has it. -/
theorem ofNumber_eq_error_iff {number : Int32} {error : RequestError} :
    ofNumber number = .error error ↔
      (∀ stage : Stage, stage.number ≠ number) ∧ error = .unknownStage number := by
  cases found : ofNumber number with
  | ok stage =>
    refine iff_of_false nofun fun ⟨unknown, _⟩ => unknown stage (ofNumber_eq_ok_iff.1 found)
  | error other =>
    -- a stage of that number would have been found
    have unknown : ∀ stage : Stage, stage.number ≠ number := fun stage same => by
      rw [ofNumber_eq_ok_iff.2 same] at found
      cases found
    have reason : other = .unknownStage number := by
      unfold ofNumber at found
      split_ifs at found
      exact (Except.error.inj found).symm
    rw [Except.error.injEq, reason, and_iff_right unknown]
    exact eq_comm

/-- The mask of a negative number has the highest bit. -/
theorem two_pow_le_toUInt32 {flags : Int32} (negative : flags < 0) :
    2 ^ 31 ≤ flags.toUInt32.toNat := by
  rw [Int32.lt_iff_toInt_lt] at negative
  have sign : flags.toBitVec.toInt < 0 := negative
  rw [BitVec.toInt_neg_iff] at sign
  show 2 ^ 31 ≤ flags.toBitVec.toNat
  omega

/-- No stage understands the highest bit. -/
theorem not_contains_of_negative {flags : Int32} (negative : flags < 0) :
    stage.supported.contains ⟨flags.toUInt32⟩ ≠ true := by
  intro covered
  -- the flags of the stages are the lowest four bits
  have high := two_pow_le_toUInt32 negative
  have low : stage.supported.bits.toNat ≤ 15 := by cases stage <;> decide
  have inside : stage.supported.bits &&& flags.toUInt32 = flags.toUInt32 :=
    of_decide_eq_true covered
  have bound : stage.supported.bits &&& flags.toUInt32 ≤ stage.supported.bits := UInt32.and_le_left
  rw [inside, UInt32.le_iff_toNat_le] at bound
  omega

end Stage

namespace Request

variable {stage : Stage} {flags : Flags} {request : Request}

/-- A request is made exactly of its own stage and flags. -/
theorem ofFlags_eq_ok_iff :
    ofFlags stage flags = .ok request ↔ request.stage = stage ∧ request.flags = flags := by
  unfold ofFlags
  split_ifs with understood
  · rw [Except.ok.injEq]
    constructor
    · rintro rfl
      exact ⟨rfl, rfl⟩
    · rintro ⟨rfl, rfl⟩
      rfl
  · refine iff_of_false nofun ?_
    rintro ⟨rfl, rfl⟩
    exact understood request.supported

/-- The refusal of flags lists those that the stage does not understand. -/
theorem ofFlags_eq_error_iff {error : RequestError} :
    ofFlags stage flags = .error error ↔
      stage.supported.contains flags ≠ true ∧
        error = .unsupportedFlags stage flags (stage.unsupported flags) := by
  rw [Ne, ← Stage.unsupported_eq_zero_iff]
  unfold ofFlags
  split_ifs with understood
  · exact iff_of_false nofun fun ⟨other, _⟩ => other understood
  · rw [Except.error.injEq, and_iff_right understood]
    exact eq_comm

end Request

/-! ## Masks and signed numbers -/

/-- A refusal that lists all flags as not understood. -/
def RequestError.wholesale : RequestError → RequestError
  | .unknownStage number => .unknownStage number
  | .unsupportedFlags stage flags _ => .unsupportedFlags stage flags flags

namespace Request

/-- The request for the number of a stage and a mask. -/
def ofMask (stage : Int32) (mask : Flags) : Except RequestError Request := do
  ofFlags (← Stage.ofNumber stage) mask

variable {stage flags : Int32} {mask : Flags}

/-- A request is made exactly of the numbers of its stage and flags. -/
theorem ofMask_eq_ok_iff {request : Request} :
    ofMask stage mask = .ok request ↔ request.stage.number = stage ∧ request.flags = mask := by
  simp only [ofMask, bind_eq_ok_iff, Stage.ofNumber_eq_ok_iff, ofFlags_eq_ok_iff]
  constructor
  · rintro ⟨known, rfl, rfl, rfl⟩
    exact ⟨rfl, rfl⟩
  · rintro ⟨rfl, rfl⟩
    exact ⟨_, rfl, rfl, rfl⟩

/-- There is a request exactly if the stage is known and supports all flags of the mask. -/
theorem exists_ofMask_eq_ok_iff :
    (∃ request, ofMask stage mask = .ok request) ↔
      ∃ known : Stage, known.number = stage ∧ known.supported.contains mask = true := by
  simp only [ofMask_eq_ok_iff, ← Stage.unsupported_eq_zero_iff]
  constructor
  · rintro ⟨request, rfl, rfl⟩
    exact ⟨request.stage, rfl, request.supported⟩
  · rintro ⟨known, rfl, understood⟩
    exact ⟨⟨known, mask, understood⟩, rfl, rfl⟩

/-- Why a stage and a mask are refused. -/
theorem ofMask_eq_error_iff {error : RequestError} :
    ofMask stage mask = .error error ↔
      (∀ known : Stage, known.number ≠ stage) ∧ error = .unknownStage stage ∨
        ∃ known : Stage, known.number = stage ∧ known.supported.contains mask ≠ true ∧
          error = .unsupportedFlags known mask (known.unsupported mask) := by
  unfold ofMask
  -- a number stands for one stage at most, so the two refusals exclude each other
  cases found : Stage.ofNumber stage with
  | error refusal =>
    obtain ⟨unknown, rfl⟩ := Stage.ofNumber_eq_error_iff.1 found
    show Except.error (RequestError.unknownStage stage) = .error error ↔ _
    rw [Except.error.injEq]
    constructor
    · rintro rfl
      exact .inl ⟨unknown, rfl⟩
    · rintro (⟨-, rfl⟩ | ⟨known, same, -⟩)
      · rfl
      · exact absurd same (unknown known)
  | ok known =>
    obtain rfl := Stage.ofNumber_eq_ok_iff.1 found
    show ofFlags known mask = .error error ↔ _
    rw [ofFlags_eq_error_iff]
    constructor
    · rintro ⟨outside, rfl⟩
      exact .inr ⟨known, rfl, outside, rfl⟩
    · rintro (⟨unknown, -⟩ | ⟨other, same, outside, rfl⟩)
      · exact absurd rfl (unknown known)
      · obtain rfl := Stage.number_injective same
        exact ⟨outside, rfl⟩

/-- Signed numbers are taken for the number of a stage and a mask, but a negative number is refused
wholesale. -/
theorem ofNumbers_eq :
    ofNumbers stage flags =
      if flags < 0 then (ofMask stage ⟨flags.toUInt32⟩).mapError RequestError.wholesale
      else ofMask stage ⟨flags.toUInt32⟩ := by
  unfold ofNumbers ofMask
  cases found : Stage.ofNumber stage with
  | error refusal =>
    obtain ⟨-, rfl⟩ := Stage.ofNumber_eq_error_iff.1 found
    split <;> rfl
  | ok known =>
    -- a negative number includes a flag that no stage supports
    by_cases negative : flags < 0
    · have outside : known.supported.contains ⟨flags.toUInt32⟩ ≠ true :=
        Stage.not_contains_of_negative negative
      have refused := ofFlags_eq_error_iff.2 ⟨outside, rfl⟩
      show (if flags < 0 then _ else _) = if flags < 0 then (ofFlags known _).mapError _ else _
      rw [if_pos negative, if_pos negative, refused]
      rfl
    · show (if flags < 0 then _ else _) = if flags < 0 then _ else ofFlags known _
      rw [if_neg negative, if_neg negative]

/-- A refusal lists all flags anyway if the stage understands none of them. -/
theorem wholesale_eq_self_iff {known : Stage} :
    RequestError.wholesale (.unsupportedFlags known mask (known.unsupported mask)) =
        .unsupportedFlags known mask (known.unsupported mask) ↔
      mask.bits &&& known.supported.bits = 0 := by
  have outside := Flags.and_not_eq_zero_iff (a := ~~~known.supported.bits) (b := mask.bits)
  rw [UInt32.not_not, UInt32.and_comm (~~~_)] at outside
  rw [outside, RequestError.wholesale, RequestError.unsupportedFlags.injEq, and_iff_right rfl,
    and_iff_right rfl]
  constructor
  · intro all
    exact (congrArg Flags.bits all).symm
  · intro all
    rw [Stage.unsupported, all]

/-- A stage that understands none of the flags of a negative number refuses them in the same way as
their mask, and so does an unknown stage. -/
theorem ofNumbers_eq_ofMask_iff :
    ofNumbers stage flags = ofMask stage ⟨flags.toUInt32⟩ ↔
      (flags < 0 → ∀ known : Stage, known.number = stage →
        flags.toUInt32 &&& known.supported.bits = 0) := by
  rw [ofNumbers_eq]
  by_cases negative : flags < 0
  · rw [if_pos negative, forall_prop_of_true negative]
    cases outcome : ofMask stage ⟨flags.toUInt32⟩ with
    | ok request =>
      -- a negative number is always refused
      obtain ⟨known, -, covered⟩ := exists_ofMask_eq_ok_iff.1 ⟨request, outcome⟩
      exact absurd covered (Stage.not_contains_of_negative negative)
    | error error =>
      show Except.error error.wholesale = .error error ↔ _
      rw [Except.error.injEq]
      obtain ⟨unknown, rfl⟩ | ⟨known, rfl, -, rfl⟩ := ofMask_eq_error_iff.1 outcome
      · exact iff_of_true rfl fun known same => absurd same (unknown known)
      · rw [wholesale_eq_self_iff]
        constructor
        · intro none other same
          rwa [Stage.number_injective same]
        · intro none
          exact none known rfl
  · rw [if_neg negative]
    exact iff_of_true rfl fun other => absurd other negative

variable (stage flags) in
/-- Signed numbers lead to the same requests as the number of a stage and a mask with the same bits.
There is a request exactly if the number is that of a stage which supports all flags of the mask,
and nothing is changed in it. Otherwise an unknown stage is reported, or the flags and those among
them that the stage does not support; but for a negative number all flags are reported as such. So
both ways have the same outcome unless a number is negative whose bits include a flag that the stage
supports. -/
theorem ofNumbers_agrees :
    (∀ request, ofNumbers stage flags = .ok request ↔
      ofMask stage ⟨flags.toUInt32⟩ = .ok request) ∧
    (∀ request, ofNumbers stage flags = .ok request ↔
      request.stage.number = stage ∧ request.flags.bits = flags.toUInt32) ∧
    ((∃ request, ofNumbers stage flags = .ok request) ↔
      ∃ known : Stage, known.number = stage ∧
        known.supported.contains ⟨flags.toUInt32⟩ = true) ∧
    (∀ error, ofMask stage ⟨flags.toUInt32⟩ = .error error ↔
      (∀ known : Stage, known.number ≠ stage) ∧ error = .unknownStage stage ∨
        ∃ known : Stage, known.number = stage ∧
          known.supported.contains ⟨flags.toUInt32⟩ ≠ true ∧
          error = .unsupportedFlags known ⟨flags.toUInt32⟩
            ⟨flags.toUInt32 &&& ~~~known.supported.bits⟩) ∧
    (∀ error, ofMask stage ⟨flags.toUInt32⟩ = .error error →
      ofNumbers stage flags = .error (if flags < 0 then error.wholesale else error)) ∧
    (ofNumbers stage flags = ofMask stage ⟨flags.toUInt32⟩ ↔
      (flags < 0 → ∀ known : Stage, known.number = stage →
        flags.toUInt32 &&& known.supported.bits = 0)) := by
  -- the sign of the number changes how a refusal is worded, and never what is accepted
  have same (request : Request) :
      ofNumbers stage flags = .ok request ↔ ofMask stage ⟨flags.toUInt32⟩ = .ok request := by
    rw [ofNumbers_eq]
    split
    · exact mapError_eq_ok_iff
    · rfl
  have refused (error : RequestError) (why : ofMask stage ⟨flags.toUInt32⟩ = .error error) :
      ofNumbers stage flags = .error (if flags < 0 then error.wholesale else error) := by
    rw [ofNumbers_eq, why]
    split <;> rfl
  refine ⟨same, fun request => ?_, ?_, fun error => ofMask_eq_error_iff, refused,
    ofNumbers_eq_ofMask_iff⟩
  · rw [same, ofMask_eq_ok_iff, ← Flags.mk.injEq]
  · simp only [same]
    exact exists_ofMask_eq_ok_iff

/-- The two ways do not always have the same outcome: all bits of the number -1 are reported as
flags that the stage does not understand, also the three that it does. -/
theorem not_ofNumbers_eq_ofMask :
    ¬ ∀ stage flags : Int32, ofNumbers stage flags = ofMask stage ⟨flags.toUInt32⟩ := by
  intro same
  exact absurd (same 0 (-1)) (by decide)

end Request

end PlanCompiler
