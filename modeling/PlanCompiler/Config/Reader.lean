import PlanCompiler.Config.Basic
import PlanCompiler.Json.Found

/-!
# Reading configurations

A configuration is a JSON object that names the settings it changes, or a JSON array with the
values of the settings in order, of which the last ones may be missing. `Config.ofText` goes
through the text once and reports the first problem: text that is not JSON, text that ends too
early, or a value or name that does not fit. A name that is unknown or repeated is reported before
its value is looked at. The settings that are not named are the standard ones.
-/

namespace PlanCompiler

/-- What does not fit in a configuration. -/
inductive ConfigFault where
  /-- The value is of another kind than expected. -/
  | wrongKind (found : Json.Found) (expected : String)
  /-- The batch size is negative. -/
  | negativeSize (size : Nat)
  /-- The batch size is out of range. -/
  | sizeOutOfRange (size : Nat)
  /-- No setting has the name. -/
  | unknownField (name : String)
  /-- The setting has been given before. -/
  | repeatedField (field : Config.Field)
  /-- No form of a compiled program has the name. -/
  | unknownArtifact (name : String)
deriving DecidableEq, Repr

namespace ConfigFault

/-- A name as messages show it. -/
def ticked (name : String) : String := "\x60" ++ name ++ "\x60"

/-- The wording of a fault. -/
def message : ConfigFault → String
  | .wrongKind found expected => "invalid type: " ++ found.text ++ ", expected " ++ expected
  | .negativeSize size => "invalid value: integer " ++ ticked ("-" ++ toString size) ++
      ", expected usize"
  | .sizeOutOfRange size =>
    "vector_size must be between 1 and " ++ toString VectorSize.greatest ++ ", got " ++
      toString size
  | .unknownField name =>
    "unknown field " ++ ticked name ++ ", expected one of " ++
      ", ".intercalate (Config.Field.all.map fun field => ticked field.name)
  | .repeatedField field => "duplicate field " ++ ticked field.name
  | .unknownArtifact name =>
    "unknown variant " ++ ticked name ++ ", expected " ++
      " or ".intercalate (ArtifactKind.all.map fun kind => ticked kind.name)

end ConfigFault

/-- Why a text is not a configuration. -/
inductive ConfigError where
  /-- The text is not JSON. -/
  | json (fault : Json.Fault)
  /-- The text is JSON so far, but does not fit. -/
  | unfit (fault : ConfigFault)
deriving DecidableEq, Repr

namespace Config

/-- Reads a part of a text and returns it with the rest of the text. -/
abbrev Reading (α : Type) := List Char → Except ConfigError (α × List Char)

/-- Reports the value at the front of a text, where another kind is expected. -/
def wrongKind {α : Type} (expected : String) (text : List Char) : Except ConfigError α := do
  let found ← (Json.Found.ofText text).mapError .json
  .error (.unfit (.wrongKind found expected))

/-- Reads fixed characters. -/
def readWord (expected : List Char) (text : List Char) : Except ConfigError (List Char) :=
  (Json.word expected text).mapError .json

/-- Reads a string, after its opening quote. -/
def readContents : Reading String := fun text =>
  match Json.string text with
  | .error fault => .error (.json fault)
  | .ok (contents, rest) => .ok (String.ofList contents, rest)

/-- Reads a string. -/
def readString (expected : String) : Reading String := fun text =>
  match Json.skipBlanks text with
  | '"' :: rest => readContents rest
  | other => wrongKind expected other

/-- Reads a truth value. -/
def readBool : Reading Bool := fun text =>
  match Json.skipBlanks text with
  | 't' :: rest => do .ok (true, ← readWord ['r', 'u', 'e'] rest)
  | 'f' :: rest => do .ok (false, ← readWord ['a', 'l', 's', 'e'] rest)
  | other => wrongKind "a boolean" other

/-- Reads the empty value. -/
def readNull : Reading Unit := fun text =>
  match Json.skipBlanks text with
  | 'n' :: rest => do .ok ((), ← readWord ['u', 'l', 'l'] rest)
  | other => wrongKind "unit" other

/-- Checks that a number is a batch size. -/
def checkSize : Json.Number → Except ConfigError Nat
  | .natural n =>
    if 1 ≤ n ∧ n ≤ VectorSize.greatest then .ok n else .error (.unfit (.sizeOutOfRange n))
  | .negative n => .error (.unfit (.negativeSize n))
  | .float x => .error (.unfit (.wrongKind (.number (.float x)) "usize"))

/-- Reads a batch size. -/
def readSize : Reading Nat := fun text => do
  let readNumber (isNegative : Bool) (digits : List Char) :
      Except ConfigError (Nat × List Char) := do
    let (number, rest) ← (Json.number isNegative digits).mapError .json
    .ok (← checkSize number, rest)
  match Json.skipBlanks text with
  | '-' :: rest => readNumber true rest
  | [] => .error (.json .incomplete)
  | c :: rest => if c.isDigit then readNumber false (c :: rest) else wrongKind "usize" (c :: rest)

/-- Reads a colon. -/
def readColon (text : List Char) : Except ConfigError (List Char) :=
  match Json.skipBlanks text with
  | ':' :: rest => .ok rest
  | [] => .error (.json .incomplete)
  | _ => .error (.json .malformed)

/-- The form of a compiled program with a name. -/
def artifactNamed (name : String) : Except ConfigError ArtifactKind :=
  match ArtifactKind.ofName? name with
  | some kind => .ok kind
  | none => .error (.unfit (.unknownArtifact name))

/-- Reads the name of a form of a compiled program, in quotes. A value of another kind is not looked
at, also where the name belongs to an object. -/
def readArtifactName : Reading ArtifactKind := fun text =>
  match Json.skipBlanks text with
  | '"' :: rest => do
    let (name, rest) ← readContents rest
    .ok (← artifactNamed name, rest)
  | [] => .error (.json .incomplete)
  | _ => .error (.json .malformed)

/-- Reads the form of a compiled program: its name, or an object with the name and an empty
value. -/
def readArtifact : Reading ArtifactKind := fun text =>
  match Json.skipBlanks text with
  | '{' :: rest => do
    let (kind, rest) ← readArtifactName rest
    let ((), rest) ← readNull (← readColon rest)
    match Json.skipBlanks rest with
    | '}' :: rest => .ok (kind, rest)
    | [] => .error (.json .incomplete)
    | _ => .error (.json .malformed)
  | other => readArtifactName other

/-- Skipping blanks does not lengthen a text. -/
theorem length_skipBlanks_le (text : List Char) :
    (Json.skipBlanks text).length ≤ text.length :=
  (List.dropWhile_sublist _).length_le

/-- Reading a string shortens the text. -/
theorem length_lt_of_readContents {text rest : List Char} {s : String}
    (h : readContents text = .ok (s, rest)) : rest.length < text.length := by
  cases read : Json.string text with
  | error fault => simp [readContents, read] at h
  | ok value =>
    simp only [readContents, read, Except.ok.injEq, Prod.mk.injEq] at h
    exact h.2 ▸ Json.length_lt_of_string read

/-- Reads the strings of an array from one of them on, after its opening quote, or reports what
stands there instead. -/
def readStrings (text : List Char) : Except ConfigError (List String × List Char) :=
  match _ : Json.skipBlanks text with
  | '"' :: contents =>
    match _ : readContents contents with
    | .error error => .error error
    | .ok (first, rest) =>
      match _ : Json.skipBlanks rest with
      | ']' :: rest => .ok ([first], rest)
      | [] => .error (.json .incomplete)
      | ',' :: rest =>
        -- A comma has to be followed by an element.
        match Json.skipBlanks rest with
        | ']' :: _ => .error (.json .malformed)
        | _ => do
          let (others, rest) ← readStrings rest
          .ok (first :: others, rest)
      | _ => .error (.json .malformed)
  | other => wrongKind "a string" other
termination_by text.length
decreasing_by
  rename_i start after read comma
  have inContents := length_skipBlanks_le text
  have inAfter := length_skipBlanks_le after
  have := length_lt_of_readContents read
  simp only [start, comma, List.length_cons] at inContents inAfter
  omega

/-- Reads an array of strings. -/
def readArray : Reading (List String) := fun text =>
  match Json.skipBlanks text with
  | '[' :: rest =>
    match Json.skipBlanks rest with
    | [] => .error (.json .incomplete)
    | ']' :: rest => .ok ([], rest)
    | _ => readStrings rest
  | other => wrongKind "a sequence" other

/-- Reads the value of a setting. -/
def readField (config : Config) : Field → Reading Config
  | .workDirectory, text => do
    let (workDirectory, rest) ← readString "path string" text
    .ok ({ config with workDirectory }, rest)
  | .compiler, text => do
    let (compiler, rest) ← readString "a string" text
    .ok ({ config with compiler }, rest)
  | .arguments, text => do
    let (arguments, rest) ← readArray text
    .ok ({ config with arguments }, rest)
  | .artifact, text => do
    let (artifact, rest) ← readArtifact text
    .ok ({ config with artifact }, rest)
  | .keepArtifacts, text => do
    let (keepArtifacts, rest) ← readBool text
    .ok ({ config with keepArtifacts }, rest)
  | .warningsAsErrors, text => do
    let (warningsAsErrors, rest) ← readBool text
    .ok ({ config with warningsAsErrors }, rest)
  | .vectorSize, text => do
    let (vectorSize, rest) ← readSize text
    .ok ({ config with vectorSize }, rest)

/-- Reads the name of a setting, after its opening quote. The setting has to be one of those that
are left. -/
def readName (left : List Field) (text : List Char) :
    Except ConfigError ({ field : Field // field ∈ left } × List Char) := do
  let (name, rest) ← readContents text
  match Field.ofName? name with
  | none => .error (.unfit (.unknownField name))
  | some field =>
    if h : field ∈ left then .ok (⟨field, h⟩, rest) else .error (.unfit (.repeatedField field))

/-- Reads the members of an object from one of them on, after the opening quote of its name. The
settings that have not been given yet are left. -/
def readMembers (left : List Field) (config : Config) : Reading Config := fun text => do
  let (⟨field, _⟩, rest) ← readName left text
  let (config, rest) ← config.readField field (← readColon rest)
  match Json.skipBlanks rest with
  | '}' :: rest => .ok (config, rest)
  | [] => .error (.json .incomplete)
  | ',' :: rest =>
    match Json.skipBlanks rest with
    | '"' :: rest => readMembers (left.erase field) config rest
    | [] => .error (.json .incomplete)
    | _ => .error (.json .malformed)
  | _ => .error (.json .malformed)
termination_by left.length
decreasing_by
  rename_i mem
  have := List.length_erase_of_mem mem
  have := List.length_pos_of_mem mem
  omega

section

variable (temporary : String)

/-- Reads an object, after its opening brace. -/
def readObject : Reading Config := fun text =>
  match Json.skipBlanks text with
  | [] => .error (.json .incomplete)
  | '}' :: rest => .ok (standard temporary, rest)
  | '"' :: rest => readMembers Field.all (standard temporary) rest
  | _ => .error (.json .malformed)

/-- Reads the values of an array from one of them on, for some settings. -/
def readValues (config : Config) : (fields : List Field) → Reading Config
  | [], _ => .error (.json .malformed)
  | field :: fields, text => do
    let (config, rest) ← config.readField field text
    match Json.skipBlanks rest with
    | ']' :: rest => .ok (config, rest)
    | [] => .error (.json .incomplete)
    | ',' :: rest =>
      -- No value may follow the one of the last setting.
      match Json.skipBlanks rest, fields with
      | ']' :: _, _ | _, [] => .error (.json .malformed)
      | _, _ => readValues config fields rest
    | _ => .error (.json .malformed)

/-- Reads the values of an array, after its opening bracket. -/
def readSequence : Reading Config := fun text =>
  match Json.skipBlanks text with
  | [] => .error (.json .incomplete)
  | ']' :: rest => .ok (standard temporary, rest)
  | _ => readValues (standard temporary) Field.all text

/-- The configuration that a text describes. -/
def ofText (text : String) : Except ConfigError Config := do
  let (config, rest) ← match Json.skipBlanks text.toList with
    | '{' :: rest => readObject temporary rest
    | '[' :: rest => readSequence temporary rest
    | other => wrongKind "struct IsolateConfig" other
  if Json.skipBlanks rest = [] then .ok config else .error (.json .malformed)

end

end Config

end PlanCompiler
