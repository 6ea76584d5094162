import ConvexCollision.Fault
import ConvexCollision.Number.Binary

/-!
# ConvexCollision.Clock -- fixed steps from frames of any length

Time is counted in whole nanoseconds below `2⁶⁴` seconds. A clock gathers the time of frames, scaled
by its dilation, and gives it out in steps of one length, at most four a frame: a longer backlog is
dropped. What is left of a frame waits for the next one.
-/

namespace ConvexCollision

/-- Nanoseconds in a second. -/
def nanosPerSecond : Nat := 1000000000

/-- The nanoseconds in `2⁶⁴` seconds, which no length of time reaches. -/
def durationLimit : Nat := UInt64.size * nanosPerSecond

/-- A length of time. -/
structure Duration where
  /-- The nanoseconds in it. -/
  nanos : Nat
  /-- There are fewer than in `2⁶⁴` seconds. -/
  isBelowLimit : nanos < durationLimit
deriving DecidableEq

namespace Duration

/-- The length of so many nanoseconds, if there is one. -/
def ofNanos (nanos : Nat) : Except Fault Duration :=
  if h : nanos < durationLimit then .ok ⟨nanos, h⟩ else .error .timeOutOfRange

/-- No time. -/
def zero : Duration := ⟨0, by decide⟩

/-- The sum, if there is one. -/
def add (a b : Duration) : Except Fault Duration := ofNanos (a.nanos + b.nanos)

/-- What is left of a length; nothing when more is taken away. -/
def sub (a : Duration) (nanos : Nat) : Duration :=
  ⟨a.nanos - nanos, Nat.lt_of_le_of_lt (Nat.sub_le ..) a.isBelowLimit⟩

/-- The whole seconds in it. -/
def seconds (d : Duration) : Nat := d.nanos / nanosPerSecond

/-- The nanoseconds beyond the whole seconds. -/
def subsecond (d : Duration) : Nat := d.nanos % nanosPerSecond

/-- The length in seconds, in double precision: the sum of the rounded seconds and the rounded rest. -/
def toSeconds (d : Duration) : Float :=
  (UInt64.ofNat d.seconds).toFloat + (UInt64.ofNat d.subsecond).toFloat / 1000000000

/-- So many seconds, rounded to the nearest nanosecond, halves to the even one. A number below zero,
too large or undefined is no length. -/
def ofSeconds : BinaryValue → Except Fault Duration
  | .finite negative x =>
    if negative && x.mantissa != 0 then .error .timeOutOfRange
    else
      let r := x.ratio
      ofNanos (Ratio.round ⟨r.num * nanosPerSecond, r.den⟩)
  | _ => .error .timeOutOfRange

/-- The length multiplied by a number. -/
def mul (d : Duration) (k : Float) : Except Fault Duration :=
  ofSeconds (BinaryValue.ofDouble (k * d.toSeconds))

end Duration

/-- Gathers the time of frames and gives it out in steps. -/
structure Clock where
  /-- The time that has not been given out. -/
  accumulated : Duration
  /-- The frames so far. -/
  frame : UInt64
  /-- The steps of the last frame. -/
  steps : Nat
  /-- The length of a step. -/
  rate : Duration
  /-- How fast time passes. -/
  dilation : Float

/-- A backlog of time that was dropped. -/
structure Backlog where
  /-- The steps that were due. -/
  steps : Nat
  /-- The frame in which they were. -/
  frame : UInt64
  /-- The length of that frame. -/
  delta : Duration
  /-- The time gathered by then. -/
  accumulated : Duration
  /-- The length of a step. -/
  rate : Duration

namespace Clock

/-- The most steps that a frame gets. -/
def maxSteps : Nat := 4

/-- A clock whose steps last so many seconds. -/
def ofStep (stepSeconds : Float32) : Except Fault Clock := do
  let rate ← Duration.ofSeconds (BinaryValue.ofSingle stepSeconds)
  return ⟨Duration.zero, 0, 0, rate, 1⟩

/-- The steps in a gathered time. Their count is kept in 32 bits. -/
def stepsIn (total rate : Duration) : Nat := total.nanos / rate.nanos % UInt32.size

/-- The clock after some more time, as that passes for it. When more steps are due than a frame gets,
all the gathered time is dropped. -/
def advance (c : Clock) (delta dilated : Duration) : Except Fault (Clock × Option Backlog) := do
  let frame := c.frame + 1
  let total ← c.accumulated.add dilated
  if c.rate.nanos = 0 then .error .zeroStep
  else
    let due := stepsIn total c.rate
    if maxSteps < due then
      return ({ c with frame, steps := maxSteps, accumulated := Duration.zero },
        some ⟨due, frame, delta, total, c.rate⟩)
    else
      return ({ c with frame, steps := due, accumulated := total.sub (due * c.rate.nanos) }, none)

/-- The clock after a frame. -/
def update (c : Clock) (delta : Duration) : Except Fault (Clock × Option Backlog) := do
  c.advance delta (← delta.mul c.dilation)

end Clock

end ConvexCollision
