import Mathlib.Data.List.Nodup
import PlanCompiler.Config.Builder

/-!
# Settings by name

A configuration is known by the values of its settings. Setting one of them leaves the others alone,
so different settings may be given in any order.

## Main definitions

* `Config.get`, `Config.set`: the value of a setting;
* `Config.Setting`: a setting with a value;
* `Config.giveAll`: a configuration with some settings changed.

## Main results

* `Config.ext_get`: a configuration is known by its values;
* `Config.giveAll_perm`: different settings may be given in any order;
* `Config.get_giveAll`, `Config.get_giveAll_of_notMem`: the values afterwards;
* `Config.build_withVectorSize_eq`: a batch size that is in range is built as it is.
-/

namespace PlanCompiler.Config

/-- The values of a setting. -/
def Field.Value : Field → Type
  | .workDirectory => String
  | .compiler => String
  | .arguments => List String
  | .artifact => ArtifactKind
  | .keepArtifacts => Bool
  | .warningsAsErrors => Bool
  | .vectorSize => Nat

/-- The list of settings is complete. -/
theorem Field.mem_all (field : Field) : field ∈ Field.all := by
  cases field <;> decide

/-- The list of settings has none twice. -/
theorem Field.nodup_all : Field.all.Nodup := by decide

/-- Different settings have different names. -/
theorem Field.name_injective {field other : Field} (same : field.name = other.name) :
    field = other := by
  revert same
  cases field <;> cases other <;> decide

/-- A setting is found exactly by its own name. -/
theorem Field.ofName?_eq_some_iff {name : String} {field : Field} :
    Field.ofName? name = some field ↔ field.name = name := by
  constructor
  · intro found
    simpa using List.find?_some found
  · rintro rfl
    cases field <;> decide

/-- The value of a setting. -/
def get (config : Config) : (field : Field) → field.Value
  | .workDirectory => config.workDirectory
  | .compiler => config.compiler
  | .arguments => config.arguments
  | .artifact => config.artifact
  | .keepArtifacts => config.keepArtifacts
  | .warningsAsErrors => config.warningsAsErrors
  | .vectorSize => config.vectorSize

/-- The configuration with another value of a setting. -/
def set (config : Config) : (field : Field) → field.Value → Config
  | .workDirectory, workDirectory => { config with workDirectory }
  | .compiler, compiler => { config with compiler }
  | .arguments, arguments => { config with arguments }
  | .artifact, artifact => { config with artifact }
  | .keepArtifacts, keepArtifacts => { config with keepArtifacts }
  | .warningsAsErrors, warningsAsErrors => { config with warningsAsErrors }
  | .vectorSize, vectorSize => { config with vectorSize }

variable {config other : Config} {field : Field}

/-- A setting has the value that it was given. -/
@[simp]
theorem get_set (value : field.Value) : (config.set field value).get field = value := by
  cases field <;> rfl

/-- A setting keeps its value when another one is changed. -/
theorem get_set_of_ne {changed : Field} (value : changed.Value) (ne : field ≠ changed) :
    (config.set changed value).get field = config.get field := by
  cases field <;> cases changed <;> first | rfl | exact absurd rfl ne

/-- A configuration is known by the values of its settings. -/
theorem ext_get (same : ∀ field, config.get field = other.get field) : config = other := by
  obtain ⟨_, _, _, _, _, _, _⟩ := config
  obtain ⟨_, _, _, _, _, _, _⟩ := other
  rw [Config.mk.injEq]
  exact ⟨same .workDirectory, same .compiler, same .arguments, same .artifact,
    same .keepArtifacts, same .warningsAsErrors, same .vectorSize⟩

/-- Two settings may be changed in either order. -/
theorem set_comm {field' : Field} (value : field.Value) (value' : field'.Value)
    (ne : field ≠ field') :
    (config.set field value).set field' value' = (config.set field' value').set field value := by
  refine ext_get fun queried => ?_
  by_cases first : queried = field
  · subst first
    rw [get_set_of_ne value' ne, get_set, get_set]
  · by_cases second : queried = field'
    · subst second
      rw [get_set_of_ne value first, get_set, get_set]
    · rw [get_set_of_ne value' second, get_set_of_ne value first, get_set_of_ne value first,
        get_set_of_ne value' second]

/-! ## Several settings -/

/-- A setting with a value. -/
abbrev Setting : Type := (field : Field) × field.Value

/-- The configuration with one setting changed. -/
def give (config : Config) (setting : Setting) : Config := config.set setting.1 setting.2

/-- The configuration with some settings changed, one after the other. -/
def giveAll (config : Config) (settings : List Setting) : Config := settings.foldl give config

variable {settings others : List Setting}

/-- The settings are different. -/
def Distinct (settings : List Setting) : Prop := (settings.map (·.1)).Nodup

/-- Different settings may be given in any order. -/
theorem giveAll_perm (perm : settings.Perm others) (distinct : Distinct settings) :
    config.giveAll settings = config.giveAll others := by
  refine perm.foldl_eq' (fun setting member setting' member' config => ?_) config
  by_cases same : setting = setting'
  · rw [same]
  · refine set_comm _ _ fun field => same ?_
    exact List.inj_on_of_nodup_map distinct member member' field

/-- What is not among the settings keeps its value. -/
theorem get_giveAll_of_notMem (absent : field ∉ settings.map (·.1)) :
    (config.giveAll settings).get field = config.get field := by
  induction settings generalizing config with
  | nil => rfl
  | cons setting others ih =>
    rw [List.map_cons, List.mem_cons, not_or] at absent
    exact (ih absent.2).trans (get_set_of_ne _ absent.1)

/-- A setting has the value that it was given. -/
theorem get_giveAll {setting : Setting} (member : setting ∈ settings)
    (distinct : Distinct settings) : (config.giveAll settings).get setting.1 = setting.2 := by
  induction settings generalizing config with
  | nil => cases member
  | cons first others ih =>
    obtain ⟨absent, distinct⟩ := List.nodup_cons.1 distinct
    rcases List.mem_cons.1 member with rfl | member
    · -- nothing behind it changes it again
      exact (get_giveAll_of_notMem absent).trans (get_set _)
    · exact ih member distinct

/-! ## Batch sizes -/

/-- A batch size that is in range is built as it is, together with the other settings. -/
theorem build_withVectorSize_eq {temporary : String} {builder : Builder} {n : Nat}
    (low : 1 ≤ config.vectorSize)
    (high : config.vectorSize ≤ VectorSize.greatest) (size : config.vectorSize = n)
    (same : ∀ field ≠ .vectorSize, (builder.build temporary).get field = config.get field) :
    (builder.withVectorSize n).build temporary = config := by
  subst size
  rw [Builder.build_withVectorSize]
  refine ext_get fun field => ?_
  -- the vector size is in its range already, and no other setting is touched
  by_cases sized : field = .vectorSize
  · subst sized
    exact VectorSize.clamp_of_le low high
  · rw [← same field sized]
    have kept : ((builder.build temporary).set .vectorSize
        (VectorSize.clamp config.vectorSize)).get field = (builder.build temporary).get field :=
      get_set_of_ne _ sized
    exact kept

end PlanCompiler.Config
