import ConvexCollision.Number.Text
import ConvexCollision.World

/-!
# ConvexCollision.Report -- the lines that tell what happens in a world

Each event has one wording, and a world is described by a line for each object and trigger. Whoever
prints the lines decides from which level on.
-/

namespace ConvexCollision

/-- A line of a report. -/
structure LogLine where
  /-- How much it matters. -/
  level : Level
  /-- What it says. -/
  text : String
deriving DecidableEq

namespace Level

/-- The name of a level. -/
def name : Level → String
  | warn => "WARN"
  | info => "INFO"
  | debug => "DEBUG"

/-- Rank of a level, the smaller the more a line matters. -/
def rank : Level → Nat
  | warn => 0
  | info => 1
  | debug => 2

end Level

namespace LogLine

/-- The line with its level in front. -/
def render (l : LogLine) : String := l.level.name ++ " " ++ l.text

/-- The line matters at least as much as a level asks for. -/
def isShownAt (l : LogLine) (level : Level) : Bool := l.level.rank ≤ level.rank

end LogLine

/-! ## Values in lines -/

/-- The name of a surface in a line. -/
def Surface.text : Surface → String
  | default => "Default"
  | sticky => "Sticky"
  | slippery => "Slippery"
  | water => "Water"

/-- A vector in a line. -/
def Vec3.text (v : Vec3 Float32) : String :=
  let coordinate := singleText NumberStyle.scientific
  "Vec3(" ++ coordinate v.x ++ ", " ++ coordinate v.y ++ ", " ++ coordinate v.z ++ ")"

/-- A list of identities in a line. -/
def EntityId.listText (ids : List EntityId) : String :=
  "[" ++ ", ".intercalate (ids.map EntityId.text) ++ "]"

/-! ## Events -/

namespace Event

/-- The wording of an event. -/
def message : Event Float32 → String
  | poolExhausted other => "contact pool exhausted, dropping contact with " ++ other.text
  | flatSimplex points => "epa skipped, flat simplex with " ++ toString points ++ " points"
  | degenerateTetrahedron => "epa skipped, degenerate tetrahedron"
  | degenerateFace => "epa failed, degenerate closest face"
  | approachUnfinished time =>
    "swept solve ran out of iterations at t = " ++ singleText NumberStyle.plain time
  | stillHitting id iterations =>
    id.text ++ " still hitting after " ++ toString iterations ++ " swept iterations, snapping back"
  | fellBelow id plane =>
    id.text ++ " fell below the kill plane at " ++
      match plane with
      | some y => singleText NumberStyle.plain y
      | none => "-inf"
  | registeredTwice id => "rejected second registration of " ++ id.text

/-- The line of an event. -/
def line (e : Event Float32) : LogLine := ⟨e.level, e.message⟩

end Event

/-! ## Worlds -/

namespace World

/-- The lines on an object: where it is and how it moves, and what it touches. -/
def objectLines (w : World Float32) (o : DynamicObject Float32) : List LogLine :=
  let contacts := (w.contactsOf o.id).map w.pool.get
  ⟨.info, o.id.text ++ " position " ++ o.position.text ++ " velocity " ++ o.velocity.text ++
      " grounded " ++ toString (w.isGrounded o.id) ++
      " under water " ++ toString (decide (0 < o.underWater))⟩ ::
    contacts.map fun c =>
      ⟨.debug, "  contact with " ++ c.other.text ++ " normal " ++ c.normal.text ++ " surface " ++
        c.surface.text⟩

/-- The line on a trigger: who is inside. -/
def triggerLine (w : World Float32) (t : SpatialTrigger Float32) : LogLine :=
  let inside := (w.contactsOf t.id).map fun c => (w.pool.get c).other
  ⟨.info, "trigger " ++ t.id.text ++ " contains " ++ EntityId.listText inside⟩

/-- The lines that describe a world. -/
def lines (w : World Float32) : List LogLine :=
  w.objects.flatMap w.objectLines ++ w.triggers.map w.triggerLine ++
    [⟨.debug, toString w.pool.activeCount ++ " of " ++ toString w.pool.capacity ++
      " contacts in use"⟩]

end World

end ConvexCollision
