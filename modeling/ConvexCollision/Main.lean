import ConvexCollision.CommandLine

/-!
# ConvexCollision.Main -- the program

Reads the files that the arguments name, runs, and prints the lines of the report on the error
stream. The environment variable `LOG_LEVEL` says from which level on.
-/

namespace ConvexCollision

/-- The options that are listed on request. -/
def helpText : String :=
  "Runs a collision world headless and logs what every object is doing.\n\n" ++
  "  --world PATH     world description to load instead of the demonstration\n" ++
  "  --config PATH    tunables overriding those of the world\n" ++
  "  --frames N       number of 60 Hz frames to simulate, usually 600\n" ++
  "  --dilation X     scales frame time before it is turned into ticks, usually 1\n" ++
  "  -h, --help       prints this list\n" ++
  "  -V, --version    prints the version"

/-- The version. -/
def versionText : String := "0.1.0"

/-- The level that a name asks for. Without a name only warnings are shown. -/
def Level.ofName : Option String → Level
  | some "debug" => .debug
  | some "info" => .info
  | _ => .warn

/-- The text of a file, if it can be read. -/
def fileText (path : String) : IO (Option String) := do
  try return some (← IO.FS.readFile path)
  catch _ => return none

/-- Those of the named files that there are. -/
def readFiles (paths : List String) : IO (List (String × String)) :=
  paths.filterMapM fun path => do return (← fileText path).map (path, ·)

/-- Runs and prints. -/
def runOptions (options : Options) : IO UInt32 := do
  let files ← readFiles (options.world.toList ++ options.config.toList)
  let report := options.run fun path => files.lookup path
  let level := Level.ofName (← IO.getEnv "LOG_LEVEL")
  for line in report.log do
    if line.isShownAt level then IO.eprintln line.render
  return UInt32.ofNat report.code

end ConvexCollision

open ConvexCollision

/-- The program. -/
def main (arguments : List String) : IO UInt32 :=
  match Request.ofArguments arguments with
  | .ok (.run options) => runOptions options
  | .ok .help => do
    IO.println helpText
    return 0
  | .ok .version => do
    IO.println versionText
    return 0
  | .error e => do
    IO.eprintln e.message
    return 2
