import PlanCompiler.Proofs.Isolate.Creation
import PlanCompiler.Proofs.Code.Name
import PlanCompiler.Proofs.Plan.Wire.RoundTrip

/-!
# Calls through a handle

A handle keeps a copy of the path of its artifact and the message of its last call, next to the
isolate that it belongs to. Each call on a handle changes the copies with statements of its own,
some before and some after the isolate has answered. Whatever is called, with whatever arguments and
whatever the compiler answers, the copies never contradict the isolate.

## Main definitions

* `Handle.Call`, `Handle.Reply`, `Handle.Call.perform`: a call and what its caller gets;
* `Handle.Call.Usable`: the arguments of a call can be used;
* `Handle.Step`: the steps of calls, by what they change;
* `Handle.Leads`: the attempts that lead from one handle to another;
* `Handle.Mirrors`, `Handle.Sound`: what a caller may rely on.

## Main results

* `Handle.step_perform`: every call is a step;
* `Handle.mirrors_and_sound_of_leads`: what a caller may rely on after any calls.
-/

namespace PlanCompiler

variable {σ α : Type} {compiler : Compiler σ α}

/-- The files that a compiler makes have no zero character in their path. -/
def Compiler.HasPlainPaths (compiler : Compiler σ α) : Prop :=
  ∀ config source workshop artifact workshop',
    compiler.compile config source workshop = (.ok artifact, workshop') →
      '\x00' ∉ (compiler.path artifact).toList

namespace Handle

/-! ## Calls -/

/-- A call on a handle. -/
inductive Call where
  /-- Ingests a plan. -/
  | plan (buffer : PlanBuffer)
  /-- Generates the source for the request that two numbers stand for. -/
  | generate (stage flags : Int32)
  /-- Compiles the source. The caller may give a place for the artifact. -/
  | compile (hasPlace : Bool)
  /-- Runs the artifact with a number of strings. The caller should give a place for the exit
  status. -/
  | runMain (count : Int32) (strings : Option (List (Option (List UInt8)))) (hasStatus : Bool)

/-- What a caller gets from a call. -/
structure Reply where
  /-- The status code. -/
  code : Int32
  /-- What is written to the place for the artifact, if anything: the path of an artifact, or that
  there is none. -/
  artifact : Option (Option String) := none
  /-- What is written to the place for the exit status, if anything. -/
  status : Option Int32 := none
deriving DecidableEq, Repr

namespace Call

/-- Carries out a call, and gives the handle afterwards. -/
def perform (handle : Handle compiler) : Call → Reply × Handle compiler
  | .plan buffer =>
    let (code, after) := handle.plan buffer
    ({ code }, after)
  | .generate stage flags =>
    let (code, after) := handle.generate stage flags
    ({ code }, after)
  | .compile hasPlace =>
    let (code, artifact, after) := handle.compile
    ({ code, artifact := if hasPlace then some artifact else none }, after)
  | .runMain count strings hasStatus =>
    let (code, status, after) := handle.runMain count strings hasStatus
    ({ code, status }, after)

/-- The strings that a program is to be run with can be used: each that is counted is there and is
UTF-8. Without a list the count must be zero. -/
def UsableStrings (count : Int32) : Option (List (Option (List UInt8))) → Prop
  | none => count = 0
  | some strings => 0 ≤ count ∧ ∀ string ∈ strings.take count.toInt.toNat,
      ∃ bytes text, string = some bytes ∧ text? bytes = some text

/-- The arguments of a call can be used, whatever the isolate: there is a buffer unless it is empty,
there is a place for the exit status, and the strings can be used. Stages and flags are for the
isolate to judge. -/
def Usable : Call → Prop
  | .plan (.absent length) => length = 0
  | .plan (.bytes _) | .generate _ _ | .compile _ => True
  | .runMain count strings hasStatus => hasStatus = true ∧ UsableStrings count strings

/-- The call on the isolate that a call comes to, if its arguments can be used. -/
def onIsolate : Call → Except ArgumentFault Isolate.Call
  | .plan (.absent 0) => .ok (.ingest [])
  | .plan (.absent (_ + 1)) => .error .noBuffer
  | .plan (.bytes contents) => .ok (.ingest contents)
  | .generate stage flags => .ok (.generateNumbers stage flags)
  | .compile _ => .ok .compile
  | .runMain count strings hasStatus =>
    if hasStatus then (arguments count strings).map .execute else .error .noStatus

end Call

/-! ## Arguments -/

/-- The arguments for a program are the strings, if these can be used. -/
theorem exists_arguments_iff {count : Int32} {strings : Option (List (Option (List UInt8)))} :
    (∃ texts, arguments count strings = .ok texts) ↔ Call.UsableStrings count strings := by
  unfold arguments
  -- a negative count is refused before the strings are looked at
  by_cases negative : count < 0
  · rw [if_pos negative]
    refine iff_of_false nofun fun usable => ?_
    cases strings with
    | none => exact absurd (usable ▸ negative) (by decide)
    | some strings => exact Int32.not_le.2 negative usable.1
  rw [if_neg negative]
  cases strings with
  | none => by_cases empty : count = 0 <;> simp [Call.UsableStrings, empty]
  | some strings =>
    refine exists_mapM_eq_ok_iff.trans ?_
    constructor
    · intro readable
      refine ⟨Int32.not_lt.1 negative, fun string member => ?_⟩
      -- the positions only serve the messages of faults
      rw [← List.zipIdx_map_fst 0 (strings.take _)] at member
      obtain ⟨⟨given, index⟩, place, rfl⟩ := List.mem_map.1 member
      obtain ⟨text, read⟩ := readable _ place
      cases given with
      | none => cases read
      | some bytes =>
        refine ⟨bytes, text, rfl, ?_⟩
        cases decoded : text? bytes with
        | none => simp [decoded] at read
        | some text' => simpa [decoded] using read
    · rintro ⟨-, readable⟩ ⟨given, index⟩ place
      obtain ⟨bytes, text, rfl, decoded⟩ := readable given (List.fst_mem_of_mem_zipIdx place)
      exact ⟨text, by simp only [decoded]⟩

/-- The arguments of a call can be used exactly if it comes to a call on the isolate. -/
theorem usable_iff {call : Call} : call.Usable ↔ ∃ inner, call.onIsolate = .ok inner := by
  cases call with
  -- a buffer that is absent may only have no bytes
  | plan buffer =>
    match buffer with
    | .absent 0 => exact iff_of_true rfl ⟨_, rfl⟩
    | .absent (_ + 1) => exact iff_of_false nofun nofun
    | .bytes _ => exact iff_of_true trivial ⟨_, rfl⟩
  | generate | compile => exact iff_of_true trivial ⟨_, rfl⟩
  | runMain count strings hasStatus =>
    cases hasStatus with
    | false => exact iff_of_false nofun nofun
    | true =>
      refine (and_iff_right rfl).trans (exists_arguments_iff.symm.trans ⟨?_, ?_⟩)
      · rintro ⟨texts, found⟩
        exact ⟨.execute texts, map_eq_ok_iff.2 ⟨texts, found, rfl⟩⟩
      · rintro ⟨inner, reached⟩
        obtain ⟨texts, found, -⟩ := map_eq_ok_iff.1 reached
        exact ⟨texts, found⟩

/-! ## Steps -/

/-- The message that a handle keeps of an error. -/
def keptMessage (error : IsolateError) : Option String := some (messageText error.message)

/-- The steps of calls on a handle: a call, its reply and the handle afterwards. Either the
arguments of the call cannot be used, or the call comes to one on the isolate. -/
inductive Step (handle : Handle compiler) : Call → Reply → Handle compiler → Prop where
  | rejected {call : Call} {fault : ArgumentFault} (refused : call.onIsolate = .error fault) :
    Step handle call { code := -8 } { handle with lastError := keptMessage (.argument fault) }
  | planned {buffer : PlanBuffer} {inner : Isolate.Call} {reply : Isolate.Reply}
      {after : Isolate compiler} (reached : (Call.plan buffer).onIsolate = .ok inner)
      (step : Isolate.Step handle.isolate inner (.ok reply) after) :
    Step handle (.plan buffer) { code := 0 } { isolate := after }
  | notPlanned {buffer : PlanBuffer} {inner : Isolate.Call} {error : IsolateError}
      {after : Isolate compiler} (reached : (Call.plan buffer).onIsolate = .ok inner)
      (step : Isolate.Step handle.isolate inner (.error error) after) :
    Step handle (.plan buffer) { code := error.code }
      { isolate := after, lastError := keptMessage error }
  | generated {stage flags : Int32} {reply : Isolate.Reply} {after : Isolate compiler}
      (step : Isolate.Step handle.isolate (.generateNumbers stage flags) (.ok reply) after) :
    Step handle (.generate stage flags) { code := 0 } { isolate := after }
  | notGenerated {stage flags : Int32} {error : IsolateError} {after : Isolate compiler}
      (step : Isolate.Step handle.isolate (.generateNumbers stage flags) (.error error) after) :
    Step handle (.generate stage flags) { code := error.code }
      { handle with isolate := after, lastError := keptMessage error }
  | compiled {hasPlace : Bool} {path : String} {after : Isolate compiler}
      (step : Isolate.Step handle.isolate .compile (.ok (.file path)) after) :
    Step handle (.compile hasPlace)
      { code := 0, artifact := if hasPlace then some (some (pathText path)) else none }
      { isolate := after, artifact := some (pathText path) }
  | notCompiled {hasPlace : Bool} {error : IsolateError} {after : Isolate compiler}
      (step : Isolate.Step handle.isolate .compile (.error error) after) :
    Step handle (.compile hasPlace)
      { code := error.code, artifact := if hasPlace then some none else none }
      { handle with isolate := after, lastError := keptMessage error }
  | ran {count : Int32} {strings : Option (List (Option (List UInt8)))} {texts : List String}
      {status : Int32} {after : Isolate compiler}
      (reached : (Call.runMain count strings true).onIsolate = .ok (.execute texts))
      (step : Isolate.Step handle.isolate (.execute texts) (.ok (.status status)) after) :
    Step handle (.runMain count strings true) { code := 0, status := some status }
      { handle with isolate := after, lastError := none }
  | notRun {count : Int32} {strings : Option (List (Option (List UInt8)))} {texts : List String}
      {error : IsolateError} {after : Isolate compiler}
      (reached : (Call.runMain count strings true).onIsolate = .ok (.execute texts))
      (step : Isolate.Step handle.isolate (.execute texts) (.error error) after) :
    Step handle (.runMain count strings true) { code := error.code }
      { handle with isolate := after, lastError := keptMessage error }

section

variable {handle after : Handle compiler} {call : Call} {reply : Reply}

/-- A plan is ingested from a buffer that is there, or is empty. -/
theorem step_of_ingest {buffer : PlanBuffer} {contents : List UInt8}
    (reached : (Call.plan buffer).onIsolate = .ok (.ingest contents))
    (performed : handle.plan buffer =
      record (handle.isolate.ingest contents).1
        { handle with isolate := (handle.isolate.ingest contents).2, artifact := none }) :
    Step handle (.plan buffer) ((Call.plan buffer).perform handle).1
      ((Call.plan buffer).perform handle).2 := by
  -- the step of the isolate tells what it answers, and this is what the handle records
  have step := handle.isolate.step_perform (.ingest contents)
  simp only [Isolate.Call.perform, Isolate.Call.perform.reply] at step
  simp only [Call.perform, performed]
  cases answer : (handle.isolate.ingest contents).1 with
  | ok result =>
    rw [answer] at step
    exact .planned reached step
  | error error =>
    rw [answer] at step
    exact .notPlanned reached step

/-- A handle that is given a plan takes that step. -/
theorem step_of_plan (buffer : PlanBuffer) :
    Step handle (.plan buffer) ((Call.plan buffer).perform handle).1
      ((Call.plan buffer).perform handle).2 :=
  match buffer with
  | .absent 0 => step_of_ingest rfl rfl
  | .absent (_ + 1) => .rejected rfl
  | .bytes _ => step_of_ingest rfl rfl

/-- A handle that generates takes that step. -/
theorem step_of_generate (stage flags : Int32) :
    Step handle (.generate stage flags) ((Call.generate stage flags).perform handle).1
      ((Call.generate stage flags).perform handle).2 := by
  have step := handle.isolate.step_perform (.generateNumbers stage flags)
  simp only [Isolate.Call.perform, Isolate.Call.perform.reply] at step
  simp only [Call.perform, generate]
  split
  · rename_i after answer
    rw [answer] at step
    exact .generated step
  · rename_i error after answer
    rw [answer] at step
    exact .notGenerated step

/-- A handle that compiles takes that step. -/
theorem step_of_compile (hasPlace : Bool) :
    Step handle (.compile hasPlace) ((Call.compile hasPlace).perform handle).1
      ((Call.compile hasPlace).perform handle).2 := by
  have step := handle.isolate.step_perform .compile
  simp only [Isolate.Call.perform, Isolate.Call.perform.reply] at step
  simp only [Call.perform, compile]
  split
  · rename_i path after answer
    rw [answer] at step
    exact .compiled step
  · rename_i error after answer
    rw [answer] at step
    exact .notCompiled step

/-- A handle that runs the artifact takes that step. -/
theorem step_of_runMain (count : Int32) (strings : Option (List (Option (List UInt8))))
    (hasStatus : Bool) :
    Step handle (.runMain count strings hasStatus)
      ((Call.runMain count strings hasStatus).perform handle).1
      ((Call.runMain count strings hasStatus).perform handle).2 := by
  cases hasStatus with
  | false => exact .rejected rfl
  | true =>
    -- with a place for the status it depends on the strings whether the artifact is run
    have reached : (Call.runMain count strings true).onIsolate =
      (arguments count strings).map .execute := rfl
    simp only [Call.perform, runMain, not_true_eq_false, if_false]
    cases given : arguments count strings with
    | error fault =>
      rw [given] at reached
      exact .rejected reached
    | ok texts =>
      rw [given] at reached
      have step := handle.isolate.step_perform (.execute texts)
      simp only [Isolate.Call.perform, Isolate.Call.perform.reply] at step
      simp only
      split
      · rename_i status after answer
        rw [answer] at step
        exact .ran reached step
      · rename_i error after answer
        rw [answer] at step
        exact .notRun reached step

/-- Every call is a step. -/
theorem step_perform (handle : Handle compiler) (call : Call) :
    Step handle call (call.perform handle).1 (call.perform handle).2 := by
  cases call with
  | plan buffer => exact step_of_plan buffer
  | generate stage flags => exact step_of_generate stage flags
  | compile hasPlace => exact step_of_compile hasPlace
  | runMain count strings hasStatus => exact step_of_runMain count strings hasStatus

end

/-- What a buffer comes to is an ingestion. -/
theorem exists_ingest {buffer : PlanBuffer} {inner : Isolate.Call}
    (reached : (Call.plan buffer).onIsolate = .ok inner) : ∃ contents, inner = .ingest contents :=
  match buffer with
  | .absent 0 => ⟨[], (Except.ok.inj reached).symm⟩
  | .absent (_ + 1) => nomatch reached
  | .bytes contents => ⟨contents, (Except.ok.inj reached).symm⟩

/-! ## The copy of the artifact -/

/-- A path without zero characters is its own text. -/
theorem pathText_of_plain {path : String} (plain : '\x00' ∉ path.toList) :
    pathText path = path := by
  rw [pathText, if_neg (by simpa using plain)]

/-- What a handle knows of its artifact is so. -/
structure Mirrors (handle : Handle compiler) : Prop where
  /-- An artifact that the handle knows is the one that its isolate holds. -/
  held : ∀ path, handle.artifact = some path →
    ∃ artifact, handle.isolate.artifact = some artifact ∧ compiler.path artifact = path
  /-- Only an isolate that is poisoned holds an artifact that its handle does not know. -/
  known : handle.artifact = none → handle.isolate.artifact = none ∨ handle.isolate.poisoned = true

namespace Mirrors

variable {handle after : Handle compiler}

/-- What matters are the two copies and the mark, which stays once it is set. -/
theorem congr (mirrors : handle.Mirrors) (copy : after.artifact = handle.artifact)
    (artifact : after.isolate.artifact = handle.isolate.artifact)
    (marked : handle.isolate.poisoned = true → after.isolate.poisoned = true) : after.Mirrors := by
  constructor
  · rw [copy, artifact]
    exact mirrors.held
  · rw [copy, artifact]
    exact fun unknown => (mirrors.known unknown).imp_right marked

/-- A handle that knows no artifact. -/
theorem of_unknown (unknown : after.artifact = none)
    (missing : after.isolate.artifact = none ∨ after.isolate.poisoned = true) : after.Mirrors := by
  refine ⟨fun path known => ?_, fun _ => missing⟩
  cases unknown.symm.trans known

/-- The path of an artifact is copied as it is if it has no zero character. -/
theorem of_known {artifact : α} (plain : '\x00' ∉ (compiler.path artifact).toList)
    (known : after.artifact = some (pathText (compiler.path artifact)))
    (held : after.isolate.artifact = some artifact) : after.Mirrors := by
  rw [pathText_of_plain plain] at known
  refine ⟨fun path known' => ⟨artifact, held, ?_⟩, fun unknown => ?_⟩
  · exact Option.some.inj (known.symm.trans known')
  · cases unknown.symm.trans known

end Mirrors

section

variable {isolate after : Isolate compiler}

/-- An isolate has no artifact left after a buffer has been ingested, unless it is poisoned. -/
theorem missing_of_ingest {buffer : List UInt8} {outcome : Except IsolateError Isolate.Reply}
    (step : Isolate.Step isolate (.ingest buffer) outcome after) :
    after.artifact = none ∨ after.poisoned = true := by
  cases step with
  | poisoned marked => exact .inr marked
  | notPlan | ingested => exact .inl (Isolate.releaseArtifact_artifact isolate)
  | noPlan _ generation | unsupported _ generation => cases generation
  | generated _ asked => cases asked

/-- An isolate has no artifact left after a source has been generated. -/
theorem missing_of_generate {stage flags : Int32} {reply : Isolate.Reply}
    (step : Isolate.Step isolate (.generateNumbers stage flags) (.ok reply) after) :
    after.artifact = none := by
  cases step with
  | generated => exact Isolate.releaseArtifact_artifact isolate

/-- A compilation that succeeds yields the path of the artifact that the isolate holds from then
on. -/
theorem held_of_compile (plain : compiler.HasPlainPaths) {path : String}
    (step : Isolate.Step isolate .compile (.ok (.file path)) after) :
    ∃ artifact, after.artifact = some artifact ∧ compiler.path artifact = path ∧
      '\x00' ∉ path.toList := by
  cases step with
  | @compiled source artifact workshop _ _ made =>
    exact ⟨artifact, rfl, rfl, plain _ _ _ _ _ made⟩

/-- A run keeps the artifact, and it keeps the mark if there is one. -/
theorem kept_of_execute {texts : List String} {outcome : Except IsolateError Isolate.Reply}
    (step : Isolate.Step isolate (.execute texts) outcome after) :
    after.artifact = isolate.artifact ∧ (isolate.poisoned = true → after.poisoned = true) := by
  cases step with
  | poisoned | noPlan | unsupported | noArtifact | notRun | executed => exact ⟨rfl, id⟩
  | fault => exact ⟨rfl, fun _ => rfl⟩
  | generated _ asked => cases asked

/-- So does every other call that fails, unless it is an ingestion. -/
theorem kept_of_error {inner : Isolate.Call} {error : IsolateError}
    (step : Isolate.Step isolate inner (.error error) after)
    (other : ∀ buffer, inner ≠ .ingest buffer) :
    after.artifact = isolate.artifact ∧ (isolate.poisoned = true → after.poisoned = true) := by
  cases step with
  | poisoned | noPlan | unsupported | noSource | notCompiled => exact ⟨rfl, id⟩
  | noArtifact | notRun => exact ⟨rfl, id⟩
  | fault => exact ⟨rfl, fun _ => rfl⟩
  | notPlan => exact absurd rfl (other _)

/-- Only a run can fail because of an argument, namely if the artifact does not take it. -/
theorem run_of_argument {inner : Isolate.Call} {fault : ArgumentFault}
    (step : Isolate.Step isolate inner (.error (.argument fault)) after) :
    ∃ texts artifact index reason, inner = .execute texts ∧ isolate.artifact = some artifact ∧
      (compiler.run artifact texts isolate.workshop).1 = .error (.argument index reason) := by
  -- the outcome is generalised, as the cases of a step have outcomes of their own
  generalize failed : (Except.error (IsolateError.argument fault) : Except _ _) = outcome at step
  cases step with
  | @notRun texts artifact error _ _ compiled _ ran =>
    cases error with
    | argument index reason =>
      exact ⟨texts, artifact, index, reason, rfl, compiled, congrArg Prod.fst ran⟩
    | notStarted | fault => cases failed
  | _ => cases failed

end

/-- Every step keeps the copy of the artifact right. -/
theorem Step.mirrors {handle after : Handle compiler} {call : Call} {reply : Reply}
    (plain : compiler.HasPlainPaths) (mirrors : handle.Mirrors)
    (step : Step handle call reply after) : after.Mirrors := by
  cases step with
  | rejected => exact mirrors.congr rfl rfl id
  | @planned buffer inner _ _ reached step | @notPlanned buffer inner _ _ reached step =>
    -- the copy is dropped before the isolate answers, also if it then refuses the plan
    obtain ⟨contents, rfl⟩ := exists_ingest reached
    exact .of_unknown rfl (missing_of_ingest step)
  | generated step => exact .of_unknown rfl (.inl (missing_of_generate step))
  | notGenerated step | notCompiled step =>
    -- here the copy is dropped after the isolate has succeeded only
    obtain ⟨artifact, marked⟩ := kept_of_error step nofun
    exact mirrors.congr rfl artifact marked
  | compiled step =>
    obtain ⟨artifact, held, rfl, noZero⟩ := held_of_compile plain step
    exact .of_known noZero rfl held
  | ran _ step | notRun _ step =>
    obtain ⟨artifact, marked⟩ := kept_of_execute step
    exact mirrors.congr rfl artifact marked

/-! ## What a caller may rely on -/

section

variable {handle after : Handle compiler} {call : Call} {reply : Reply}

/-- No error has the status code of a success. -/
theorem code_ne_zero (error : IsolateError) : error.code ≠ 0 := by
  cases error <;> (simp only [IsolateError.code, ne_eq]; decide)

/-- Only faults of arguments have the status code of such a fault. -/
theorem exists_argument_of_code {error : IsolateError} (code : error.code = -8) :
    ∃ fault, error = .argument fault := by
  cases error with
  | argument fault => exact ⟨fault, rfl⟩
  | _ => exact absurd code (by simp only [IsolateError.code]; decide)

/-- There is no message after a call exactly if it has succeeded. -/
theorem Step.lastError_iff (step : Step handle call reply after) :
    after.lastError = none ↔ reply.code = 0 := by
  cases step with
  | rejected => exact iff_of_false nofun nofun
  | planned | generated | compiled | ran => exact iff_of_true rfl rfl
  | notPlanned | notGenerated | notCompiled | notRun =>
    exact iff_of_false nofun (code_ne_zero _)

/-- A compilation that succeeds puts the artifact of the isolate into the place. -/
theorem Step.placed (plain : compiler.HasPlainPaths)
    (step : Step handle (.compile true) reply after) (done : reply.code = 0) :
    ∃ artifact, after.isolate.artifact = some artifact ∧
      reply.artifact = some (some (compiler.path artifact)) ∧
      after.artifact = some (compiler.path artifact) := by
  cases step with
  | rejected refused => cases refused
  | notCompiled => exact absurd done (code_ne_zero _)
  | compiled step =>
    obtain ⟨artifact, held, rfl, noZero⟩ := held_of_compile plain step
    rw [pathText_of_plain noZero]
    exact ⟨artifact, held, rfl, rfl⟩

/-- A compilation that fails puts none there. -/
theorem Step.emptied (step : Step handle (.compile true) reply after) (failed : reply.code ≠ 0) :
    reply.artifact = some none := by
  cases step with
  | rejected refused => cases refused
  | notCompiled => rfl
  | compiled => exact absurd rfl failed

/-- Other calls do not write to the place of an artifact. -/
theorem Step.untouched (step : Step handle call reply after) (other : call ≠ .compile true) :
    reply.artifact = none := by
  cases step with
  | rejected | planned | notPlanned | generated | notGenerated | ran | notRun => rfl
  | @compiled hasPlace | @notCompiled hasPlace =>
    cases hasPlace with
    | true => exact absurd rfl other
    | false => rfl

/-- An exit status is written exactly by a run that succeeds. -/
theorem Step.status_iff (step : Step handle call reply after) :
    reply.status ≠ none ↔
      (∃ count strings hasStatus, call = .runMain count strings hasStatus) ∧ reply.code = 0 := by
  cases step with
  | ran => exact iff_of_true nofun ⟨⟨_, _, _, rfl⟩, rfl⟩
  | rejected => exact iff_of_false (absurd rfl) nofun
  | planned | generated | compiled | notPlanned | notGenerated | notCompiled =>
    refine iff_of_false (absurd rfl) ?_
    rintro ⟨⟨_, _, _, ⟨⟩⟩, -⟩
  | notRun => exact iff_of_false (absurd rfl) fun run => code_ne_zero _ run.2

/-- A call whose arguments cannot be used is refused and changes nothing but the message. -/
theorem Step.refused (step : Step handle call reply after) (unusable : ¬ call.Usable) :
    reply.code = -8 ∧ after.isolate = handle.isolate ∧ after.artifact = handle.artifact := by
  cases step with
  | rejected => exact ⟨rfl, rfl, rfl⟩
  | planned reached | notPlanned reached | ran reached | notRun reached =>
    exact absurd (usable_iff.2 ⟨_, reached⟩) unusable
  | generated | notGenerated | compiled | notCompiled => exact absurd trivial unusable

/-- No other call is refused with the same code but a run whose strings the artifact does not
take. -/
theorem Step.refused_by_run (step : Step handle call reply after) (usable : call.Usable)
    (code : reply.code = -8) :
    ∃ count strings texts artifact index reason, call = .runMain count strings true ∧
      arguments count strings = .ok texts ∧ handle.isolate.artifact = some artifact ∧
      (compiler.run artifact texts handle.isolate.workshop).1 =
        .error (.argument index reason) := by
  cases step with
  | rejected refused =>
    obtain ⟨inner, reached⟩ := usable_iff.1 usable
    cases reached.symm.trans refused
  | planned | generated | compiled | ran => cases code
  -- the code gives away that the isolate has found fault with an argument, as only a run does
  | notPlanned reached step =>
    obtain ⟨fault, rfl⟩ := exists_argument_of_code code
    obtain ⟨contents, rfl⟩ := exists_ingest reached
    obtain ⟨_, _, _, _, ⟨⟩, -⟩ := run_of_argument step
  | notGenerated step | notCompiled step =>
    obtain ⟨fault, rfl⟩ := exists_argument_of_code code
    obtain ⟨_, _, _, _, ⟨⟩, -⟩ := run_of_argument step
  | @notRun count strings texts error _ reached step =>
    obtain ⟨fault, rfl⟩ := exists_argument_of_code code
    obtain ⟨_, artifact, index, reason, ⟨⟩, held, ran⟩ := run_of_argument step
    obtain ⟨texts', found, same⟩ := map_eq_ok_iff.1 reached
    obtain rfl := Isolate.Call.execute.inj same
    exact ⟨count, strings, texts', artifact, index, reason, rfl, found, held, ran⟩

/-- What a caller may rely on about one call, which is made on a handle and yields a reply and
another handle. -/
structure Sound (handle : Handle compiler) (call : Call) (reply : Reply)
    (after : Handle compiler) : Prop where
  /-- There is no message afterwards exactly if the call has succeeded. -/
  message : lastMessage (some after) = none ↔ reply.code = 0
  /-- A compilation that succeeds puts the artifact into the place that the isolate holds, which is
  also the one that the handle knows. -/
  placed : call = .compile true → reply.code = 0 →
    ∃ artifact, after.isolate.artifact = some artifact ∧
      reply.artifact = some (some (compiler.path artifact)) ∧
      after.artifact = some (compiler.path artifact)
  /-- A compilation that fails puts none there. -/
  emptied : call = .compile true → reply.code ≠ 0 → reply.artifact = some none
  /-- Other calls do not write to the place of an artifact. -/
  untouched : call ≠ .compile true → reply.artifact = none
  /-- An exit status is written exactly by a run that succeeds. -/
  status : reply.status ≠ none ↔
    (∃ count strings hasStatus, call = .runMain count strings hasStatus) ∧ reply.code = 0
  /-- A call whose arguments cannot be used is refused, and changes neither the isolate nor what is
  known of its artifact. -/
  refused : ¬ call.Usable →
    reply.code = -8 ∧ after.isolate = handle.isolate ∧ after.artifact = handle.artifact
  /-- No other call is refused with the same code but a run whose strings the artifact does not
  take. -/
  refused_by_run : call.Usable → reply.code = -8 →
    ∃ count strings texts artifact index reason, call = .runMain count strings true ∧
      arguments count strings = .ok texts ∧ handle.isolate.artifact = some artifact ∧
      (compiler.run artifact texts handle.isolate.workshop).1 = .error (.argument index reason)

/-- Every step keeps these promises. -/
theorem Step.sound (plain : compiler.HasPlainPaths) (step : Step handle call reply after) :
    Sound handle call reply after where
  message := step.lastError_iff
  placed compilation := (compilation ▸ step).placed plain
  emptied compilation := (compilation ▸ step).emptied
  untouched := step.untouched
  status := step.status_iff
  refused := step.refused
  refused_by_run := step.refused_by_run

end

/-! ## Any calls -/

/-- A call and the handle that it is made on. -/
structure Attempt (compiler : Compiler σ α) where
  /-- The handle. -/
  handle : Handle compiler
  /-- The call. -/
  call : Call

namespace Attempt

/-- What the caller gets. -/
def reply (attempt : Attempt compiler) : Reply := (attempt.call.perform attempt.handle).1

/-- The handle afterwards. -/
def after (attempt : Attempt compiler) : Handle compiler :=
  (attempt.call.perform attempt.handle).2

end Attempt

/-- The attempts that lead from one handle to another, the last one first. Between two of them the
state of the compiler may change. -/
inductive Leads (start : Handle compiler) : List (Attempt compiler) → Handle compiler → Prop where
  | start : Leads start [] start
  | called {attempts : List (Attempt compiler)} {handle : Handle compiler} (call : Call)
      (before : Leads start attempts handle) :
    Leads start (⟨handle, call⟩ :: attempts) (call.perform handle).2
  | interfered {attempts : List (Attempt compiler)} {handle : Handle compiler} (workshop : σ)
      (before : Leads start attempts handle) :
    Leads start attempts { handle with isolate := { handle.isolate with workshop } }

section

variable {start handle : Handle compiler} {attempts : List (Attempt compiler)}

/-- There is no message exactly if the last attempt has succeeded. -/
theorem Leads.lastError_iff (led : Leads start attempts handle) (quiet : start.lastError = none) :
    handle.lastError = none ↔ ∀ attempt ∈ attempts.head?, attempt.reply.code = 0 := by
  induction led with
  | start => simpa using quiet
  | called call before ih =>
    simp only [List.head?_cons, Option.mem_some_iff, forall_eq']
    exact (step_perform _ call).lastError_iff
  | interfered workshop before ih => exact ih

/-- Attempts keep the copy of the artifact right. -/
theorem Leads.mirrors (plain : compiler.HasPlainPaths) (led : Leads start attempts handle)
    (mirrors : start.Mirrors) : handle.Mirrors := by
  induction led with
  | start => exact mirrors
  | called call before ih => exact (step_perform _ call).mirrors plain ih
  | interfered workshop before ih => exact ih.congr rfl rfl id

/-- What a caller may rely on after any attempts on a handle that has been created: there is a
message exactly if the last attempt failed, what is known of the artifact is so, and every attempt
has kept its promises. -/
theorem mirrors_and_sound_of_leads {temporary : String}
    {makeDirectory : String → Except String Unit} {workshop : σ} {config : Option (List UInt8)}
    {former : Option (Handle compiler)}
    (plain : compiler.HasPlainPaths)
    (made : create temporary makeDirectory workshop config former = (0, some start))
    (led : Leads start attempts handle) :
    (lastMessage (some handle) = none ↔ ∀ attempt ∈ attempts.head?, attempt.reply.code = 0) ∧
      handle.Mirrors ∧
      ∀ attempt ∈ attempts, Sound attempt.handle attempt.call attempt.reply attempt.after := by
  -- a new handle has no message and knows no artifact, and its isolate holds none
  obtain ⟨settings, -, rfl⟩ := eq_fresh_of_create _ _ _ _ _ made
  refine ⟨led.lastError_iff rfl, led.mirrors plain (.of_unknown rfl (.inl rfl)), ?_⟩
  exact fun attempt _ => (step_perform attempt.handle attempt.call).sound plain

end

/-- The files of a stand-in have plain paths. -/
theorem hasPlainPaths_standIn : StandIn.compiler.HasPlainPaths := by
  intro config source workshop artifact workshop' made
  obtain ⟨number, rfl⟩ : ∃ number, artifact = StandIn.artifactPath source.request.stage number := by
    rw [StandIn.compiler] at made
    simp only at made
    split at made
    · cases made
    · cases made
      exact ⟨_, rfl⟩
  -- all parts of the path are fixed texts but the stage and the number
  have name : '\x00' ∉ source.request.stage.name.toList := by
    cases source.request.stage <;> decide
  have digits : '\x00' ∉ (toString number).toList := fun member => by
    cases isIdentifier_toString number _ member
  show '\x00' ∉ (StandIn.artifactPath source.request.stage number).toList
  simp only [StandIn.artifactPath, String.toList_append, List.mem_append, not_or]
  exact ⟨⟨⟨⟨by decide, name⟩, by decide⟩, digits⟩, by decide⟩

/-- Calls that ingest a plan, generate its source, compile it, and run it without a place for the
exit status. -/
theorem mirrors_and_sound_of_leads_largeOrders :
    ∃ (start handle : Handle StandIn.compiler) (attempts : List (Attempt StandIn.compiler)),
      create "/tmp" (fun _ => .ok ()) {} none none = (0, some start) ∧ Leads start attempts handle ∧
      attempts.length = 4 ∧ handle.artifact = some "fake-vectorised-0.so" ∧
      lastMessage (some handle) = some "invalid argument: null status pointer" ∧ handle.Mirrors ∧
      ∀ attempt ∈ attempts, Sound attempt.handle attempt.call attempt.reply attempt.after := by
  let start : Handle StandIn.compiler := fresh (.standard "/tmp") {}
  have fits : Plan.largeOrders.FitsWords := by constructor <;> decide
  have decoded : Plan.decode Plan.largeOrders.encode = .ok .largeOrders :=
    Plan.decode_eq_ok_iff.2 ⟨Plan.largeOrders.hasForm fits, rfl⟩
  have ingested : ((Call.plan (.bytes Plan.largeOrders.encode)).perform start).2 =
      { isolate := { config := .standard "/tmp", workshop := {}, plan := some .largeOrders } } := by
    simp only [Call.perform, plan, Isolate.ingest, decoded]
    rfl
  -- the plan is written in as it decodes, so that the calls behind it are computed
  have planned : Leads start [_] _ := Leads.start.called (.plan (.bytes Plan.largeOrders.encode))
  rw [ingested] at planned
  have compiled := (planned.called (.generate 1 8)).called (.compile true)
  have led := compiled.called (.runMain 0 none false)
  have made : create "/tmp" (fun _ => .ok ()) {} none none = (0, some start) := rfl
  exact ⟨start, _, _, made, led, rfl, by rfl, by rfl,
    (mirrors_and_sound_of_leads hasPlainPaths_standIn made led).2⟩
end Handle

end PlanCompiler
