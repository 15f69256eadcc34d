import PlanCompiler.Isolate.Handle
import PlanCompiler.Isolate.StandIn
import PlanCompiler.Proofs.Isolate.Call

/-!
# Creating handles

A handle is created for settings, which a caller may give as a text, and it is put into a place of
the caller that may hold an earlier handle. There are three outcomes. A new handle replaces the
earlier one. If the work directory cannot be created, the place is emptied. But settings that cannot
be read leave the earlier handle where it is, so that a caller who only looks at the place takes it
for the new one.

## Main definitions

* `Handle.settings?`: the settings that a caller asks for;
* `Handle.fresh`: the handle of a new isolate.

## Main results

* `Handle.create_eq`: the three outcomes;
* `Handle.place_of_create`: what each status code says about the place.
-/

namespace PlanCompiler.Handle

variable {σ α : Type} {compiler : Compiler σ α}

/-- The settings that a text asks for, the standard ones without a text. None if the text is not
UTF-8 or no configuration. -/
def settings? (temporary : String) : Option (List UInt8) → Option Config
  | none => some (.standard temporary)
  | some bytes => (text? bytes).bind fun text => (Config.ofText temporary text).toOption

/-- The handle of a new isolate. No call has been made on it. -/
def fresh (settings : Config) (workshop : σ) : Handle compiler where
  isolate := { config := settings, workshop }

section

variable (temporary : String) (makeDirectory : String → Except String Unit) (workshop : σ)
  (config : Option (List UInt8)) (former : Option (Handle compiler))

/-- The isolate is created once the settings are known. -/
theorem create_eq_of_settings :
    create temporary makeDirectory workshop config former =
      match settings? temporary config with
      | none => (-8, former)
      | some settings =>
        match Isolate.create makeDirectory settings workshop with
        | .ok isolate => (0, some { isolate })
        | .error error => (error.code, none) := by
  cases config <;> rfl

/-- The three outcomes of a creation. -/
theorem create_eq :
    create temporary makeDirectory workshop config former =
      match settings? temporary config with
      | none => (-8, former)
      | some settings =>
        match makeDirectory settings.workDirectory with
        | .ok () => (0, some (fresh settings workshop))
        | .error _ => (-1, none) := by
  rw [create_eq_of_settings]
  cases settings? temporary config with
  | none => rfl
  | some settings =>
    simp only [Isolate.create]
    cases makeDirectory settings.workDirectory <;> rfl

/-- The place after a creation. It holds the handle of a new isolate exactly if the status code is
zero, and it is empty if the work directory cannot be created, which has the code -1. The only other
code, -8, is that of settings that cannot be read, and then the place is left as it was. -/
theorem place_of_create :
    (create temporary makeDirectory workshop config former).2 =
        (if (create temporary makeDirectory workshop config former).1 = 0 then
          (settings? temporary config).map (fresh · workshop)
        else if (create temporary makeDirectory workshop config former).1 = -8 then former
        else none) ∧
      ((create temporary makeDirectory workshop config former).1 = 0 ↔ ∃ settings,
        settings? temporary config = some settings ∧
          makeDirectory settings.workDirectory = .ok ()) ∧
      ((create temporary makeDirectory workshop config former).1 = -8 ↔
        settings? temporary config = none) ∧
      ((create temporary makeDirectory workshop config former).1 = -1 ↔ ∃ settings reason,
        settings? temporary config = some settings ∧
          makeDirectory settings.workDirectory = .error reason) := by
  -- there are settings or not, and the directory can be made or not
  rw [create_eq]
  cases settings? temporary config with
  | none => simp
  | some settings =>
    cases made : makeDirectory settings.workDirectory <;> simp [made]

/-- A handle that has been created is new. -/
theorem eq_fresh_of_create {start : Handle compiler}
    (made : create temporary makeDirectory workshop config former = (0, some start)) :
    ∃ settings, settings? temporary config = some settings ∧ start = fresh settings workshop := by
  rw [create_eq] at made
  split at made
  · cases made
  · rename_i settings asked
    split at made
    · exact ⟨settings, asked, (Option.some.inj (congrArg Prod.snd made)).symm⟩
    · cases made

end

/-- It is not so that every creation that fails leaves an empty place: settings that are not UTF-8
leave an earlier handle in it. -/
theorem not_place_eq_none_of_create :
    ¬ ∀ (temporary : String) (makeDirectory : String → Except String Unit) (workshop : StandIn)
        (config : Option (List UInt8)) (former : Option (Handle StandIn.compiler)),
      (create temporary makeDirectory workshop config former).1 ≠ 0 →
        (create temporary makeDirectory workshop config former).2 = none := by
  intro emptied
  -- the byte `0xff` is never part of UTF-8
  have unreadable : settings? "/tmp" (some [0xff]) = none := by decide +kernel
  have failed := emptied "/tmp" (fun _ => .ok ()) {} (some [0xff])
    (some (fresh (.standard "/tmp") {}))
  rw [create_eq, unreadable] at failed
  cases failed (by decide)

end PlanCompiler.Handle
