import ConvexCollision.Clock
import ConvexCollision.Report
import ConvexCollision.World.Tick

/-!
# ConvexCollision.Simulation -- a world run for a number of frames

Frames come sixty to the second. The clock turns each of them into ticks of the world; what the ticks
report is gathered line by line, and the world is described once a second and at the end. A fault
ends the run with the lines until then.
-/

namespace ConvexCollision

/-- A world in time, and the lines so far. -/
structure Simulation where
  /-- The world. -/
  world : World Float32
  /-- The clock. -/
  clock : Clock
  /-- The lines, oldest first. -/
  log : Array LogLine

/-- The line on time that was dropped. -/
def Backlog.line (b : Backlog) : LogLine :=
  let seconds (d : Duration) := doubleText NumberStyle.plain d.toSeconds
  ⟨.warn, "capping collision steps " ++ toString b.steps ++ " on frame " ++ toString b.frame ++
    " from time " ++ seconds b.delta ++ " accumulated " ++ seconds b.accumulated ++
    " at rate " ++ seconds b.rate⟩

namespace Simulation

/-- The length of a frame. -/
def frameTime : Duration := ⟨16666667, by decide⟩

/-- The frames after which the world is described. -/
def framesBetweenReports : UInt64 := 60

/-- The simulation with further lines. -/
def write (s : Simulation) (lines : List LogLine) : Simulation :=
  { s with log := s.log ++ lines }

/-- A world before its first frame. -/
def start (world : World Float32) (dilation : Float) : Except Fault Simulation := do
  let clock ← Clock.ofStep world.config.fixedTimeStep
  return ⟨world, { clock with dilation }, #[]⟩

/-- The line that announces a run. -/
def announce (s : Simulation) (frames : Nat) : Simulation :=
  s.write [⟨.info, "simulating " ++ toString frames ++ " frames with " ++
    toString s.world.objects.length ++ " objects, " ++ toString s.world.triggers.length ++
    " triggers and " ++ toString s.world.meshes.length ++ " meshes"⟩]

/-- One tick of the world. -/
def tick (s : Simulation) : Except (Halt Simulation) Simulation :=
  match s.world.collide with
  | .ok outcome =>
    let fallen := outcome.despawned.map fun id : EntityId =>
      (⟨.info, "frame " ++ toString s.clock.frame ++ ": " ++ id.text ++ " fell out of the world"⟩ :
        LogLine)
    .ok ({ s with world := outcome.world }.write (outcome.journal.toList.map Event.line ++ fallen))
  | .error halt => .error ⟨halt.fault, s.write (halt.reached.toList.map Event.line)⟩

/-- So many ticks of the world. -/
def ticks : Nat → Simulation → Except (Halt Simulation) Simulation
  | 0, s => .ok s
  | n + 1, s => do ticks n (← s.tick)

/-- The description of the world as it is. -/
def report (s : Simulation) : Simulation := s.write s.world.lines

/-- The description of the world, when it is due. -/
def reportIfDue (s : Simulation) : Simulation :=
  if s.clock.frame % framesBetweenReports = 0 then
    (s.write [⟨.info, "frame " ++ toString s.clock.frame⟩]).report
  else s

/-- One frame. -/
def frame (s : Simulation) : Except (Halt Simulation) Simulation := do
  let (clock, backlog) ← Halt.after s (s.clock.update frameTime)
  let s := { s with clock }.write (backlog.toList.map Backlog.line)
  return (← ticks clock.steps s).reportIfDue

/-- So many frames. -/
def frames : Nat → Simulation → Except (Halt Simulation) Simulation
  | 0, s => .ok s
  | n + 1, s => do frames n (← s.frame)

/-- A whole run: announced, run for so many frames and described at the end. -/
def run (s : Simulation) (n : Nat) : Except (Halt Simulation) Simulation := do
  return (← frames n (s.announce n)).report

end Simulation

end ConvexCollision
