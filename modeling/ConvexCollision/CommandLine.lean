import ConvexCollision.Format.Scene
import ConvexCollision.Json.Read
import ConvexCollision.Number.Read
import ConvexCollision.Scene.Demo
import ConvexCollision.Simulation

/-!
# ConvexCollision.CommandLine -- what the program is asked to do, and what comes of it

The arguments are options with values; a value follows its option or stands behind an equals sign.
The first thing wrong decides. A run is a function of the arguments and of the files that they name;
its outcome is an exit code and the lines of the report.
-/

namespace ConvexCollision

/-- What a run is made of. -/
structure Options where
  /-- The file of the scene, if not the demonstration. -/
  world : Option String
  /-- The file of the tunables, if not those of the scene. -/
  config : Option String
  /-- The number of frames. -/
  frames : Nat
  /-- How fast time passes. -/
  dilation : Float

/-- What the arguments ask for. -/
inductive Request where
  /-- A run. -/
  | run (options : Options)
  /-- The list of options. -/
  | help
  /-- The version. -/
  | version

/-- Why arguments are not understood. -/
inductive UsageError where
  /-- Nothing is expected there. -/
  | unexpected (argument : String)
  /-- The option needs a value. -/
  | valueMissing (option : String)
  /-- The option takes no value. -/
  | valueUnwanted (option : String)
  /-- The option was given before. -/
  | repeated (option : String)
  /-- The value does not suit the option. -/
  | valueInvalid (option value : String)
deriving DecidableEq

/-! ## Arguments -/

namespace UsageError

/-- The wording of an error. -/
def message : UsageError → String
  | unexpected argument => "unexpected argument " ++ argument
  | valueMissing option => "a value is required for --" ++ option
  | valueUnwanted option => "unexpected value for --" ++ option
  | repeated option => "--" ++ option ++ " cannot be used multiple times"
  | valueInvalid option value => "invalid value " ++ value ++ " for --" ++ option

end UsageError

/-- The options as far as they have been given. -/
structure GivenOptions where
  /-- The file of the scene. -/
  world : Option String := none
  /-- The file of the tunables. -/
  config : Option String := none
  /-- The number of frames. -/
  frames : Option Nat := none
  /-- How fast time passes. -/
  dilation : Option Float := none

namespace GivenOptions

/-- The options that take a value. -/
def names : List String := ["world", "config", "frames", "dilation"]

/-- What is not given has its usual value. -/
def complete (g : GivenOptions) : Options :=
  ⟨g.world, g.config, g.frames.getD 600, g.dilation.getD 1⟩

/-- The value of an option that may be given once. -/
def once {β : Type} (name value : String) (before : Option β) (read : String → Option β) :
    Except UsageError (Option β) :=
  if before.isSome then .error (.repeated name)
  else
    match read value with
    | some b => .ok (some b)
    | none => .error (.valueInvalid name value)

/-- The name of a file. -/
def path? (value : String) : Option String := if value.isEmpty then none else some value

/-- A count that fits 64 bits. -/
def frameCount? (value : String) : Option Nat := (natOfText? value.toList).filter (· < UInt64.size)

/-- Takes the value of an option. -/
def set (g : GivenOptions) (name value : String) : Except UsageError GivenOptions :=
  match name with
  | "world" => do return { g with world := ← once name value g.world path? }
  | "config" => do return { g with config := ← once name value g.config path? }
  | "frames" => do return { g with frames := ← once name value g.frames frameCount? }
  | "dilation" => do return { g with dilation := ← once name value g.dilation doubleOfText? }
  | _ => .error (.unexpected ("--" ++ name))

end GivenOptions

/-- An argument by its form. -/
inductive Argument where
  /-- An option, and the value behind its equals sign. -/
  | option (name : String) (value : Option String)
  /-- Single letters after one dash. -/
  | letters (letters : List Char)
  /-- Two dashes: no option follows. -/
  | endOfOptions
  /-- Anything else. -/
  | plain (value : String)

namespace Argument

/-- The characters before the first equals sign, and those after it if there is one. -/
def splitEquals : List Char → List Char × Option (List Char)
  | [] => ([], none)
  | '=' :: rest => ([], some rest)
  | c :: rest =>
    let (name, value) := splitEquals rest
    (c :: name, value)

/-- The form of an argument. -/
def ofText (text : String) : Argument :=
  match text.toList with
  | ['-', '-'] => endOfOptions
  | '-' :: '-' :: rest =>
    let (name, value) := splitEquals rest
    option (String.ofList name) (value.map String.ofList)
  | '-' :: c :: rest => letters (c :: rest)
  | _ => plain text

end Argument

namespace Request

/-- The request of an option without a value. -/
def ofFlag? : String → Option Request
  | "help" => some help
  | "version" => some version
  | _ => none

/-- The request of letters after a dash. -/
def ofLetters (letters : List Char) : Except UsageError Request :=
  match letters with
  | 'h' :: _ => .ok help
  | 'V' :: _ => .ok version
  | _ => .error (.unexpected ("-" ++ String.ofList letters))

/-- What arguments ask for, after those already taken. -/
def ofArgumentsFrom (g : GivenOptions) : List String → Except UsageError Request
  | [] => .ok (run g.complete)
  | first :: rest =>
    match Argument.ofText first with
    | .endOfOptions =>
      match rest with
      | [] => .ok (run g.complete)
      | second :: _ => .error (.unexpected second)
    | .letters letters => ofLetters letters
    | .plain value => .error (.unexpected value)
    | .option name value =>
      match ofFlag? name, value with
      | some request, none => .ok request
      | some _, some _ => .error (.valueUnwanted name)
      | none, some value =>
        match g.set name value with
        | .ok g => ofArgumentsFrom g rest
        | .error e => .error e
      | none, none =>
        if !GivenOptions.names.contains name then .error (.unexpected first)
        else
          match rest with
          | [] => .error (.valueMissing name)
          | second :: rest =>
            match Argument.ofText second with
            | .plain value =>
              match g.set name value with
              | .ok g => ofArgumentsFrom g rest
              | .error e => .error e
            | _ => .error (.valueMissing name)

/-- What arguments ask for. -/
def ofArguments (arguments : List String) : Except UsageError Request := ofArgumentsFrom {} arguments

end Request

/-! ## Runs -/

/-- What comes of a run. -/
structure ExitReport where
  /-- The exit code. -/
  code : Nat
  /-- The lines, oldest first. -/
  log : List LogLine

/-- Why a run does not begin. -/
inductive StartFailure where
  /-- A file cannot be read or is not what it should be, or the world is refused. -/
  | failed (error : CollisionError)
  /-- Something was asked for that cannot be done. -/
  | faulty (fault : Fault)
deriving DecidableEq

namespace StartFailure

/-- A failed build as a reason not to begin. -/
def ofBuild {β : Type} : Except BuildFailure β → Except StartFailure β
  | .ok b => .ok b
  | .error (.refused e) => .error (failed e)
  | .error (.faulty f) => .error (faulty f)

/-- What a refusal reports by itself. -/
def lines : StartFailure → List LogLine
  | failed (.duplicateEntity id) => [Event.line (.registeredTwice id)]
  | _ => []

/-- The exit code of a run that does not begin. -/
def code : StartFailure → Nat
  | failed _ => 1
  | faulty _ => 101

/-- What comes of a run that does not begin. -/
def report (f : StartFailure) : ExitReport := ⟨f.code, f.lines⟩

end StartFailure

/-- A value from the text of a file. -/
def fileValue {β : Type} (ofJson? : Json Float32 → Option β) : Option String → Except CollisionError β
  | none => .error .unreadable
  | some text =>
    match (Json.ofText? text).bind ofJson? with
    | some b => .ok b
    | none => .error .malformed

/-- The world of a file. -/
def World.ofFile (text : Option String) : Except StartFailure (World Float32) :=
  match fileValue Scene.ofJson? text with
  | .ok scene => StartFailure.ofBuild scene.build
  | .error e => .error (.failed e)

/-- The tunables of a file. -/
def Config.ofFile (text : Option String) : Except CollisionError (Config Float32) :=
  fileValue Config.ofJson? text

namespace Options

/-- The world of a run. The file of the scene is read before that of the tunables. -/
def startWorld (o : Options) (files : String → Option String) : Except StartFailure (World Float32) := do
  let w ← match o.world with
    | some path => World.ofFile (files path)
    | none => StartFailure.ofBuild (Demo.world Config.standard)
  match o.config with
  | none => return w
  | some path =>
    match Config.ofFile (files path) with
    | .ok config => StartFailure.ofBuild (w.withConfig config)
    | .error e => .error (.failed e)

/-- The run, given the files by name. -/
def run (o : Options) (files : String → Option String) : ExitReport :=
  match o.startWorld files with
  | .error f => f.report
  | .ok w =>
    match Simulation.start w o.dilation with
    | .error f => (StartFailure.faulty f).report
    | .ok s =>
      match s.run o.frames with
      | .ok s => ⟨0, s.log.toList⟩
      | .error halt => ⟨(StartFailure.faulty halt.fault).code, halt.reached.log.toList⟩

end Options

/-- What comes of some arguments, given the files by name. -/
def runArguments (arguments : List String) (files : String → Option String) : ExitReport :=
  match Request.ofArguments arguments with
  | .error _ => ⟨2, []⟩
  | .ok (.run options) => options.run files
  | .ok _ => ⟨0, []⟩

end ConvexCollision
