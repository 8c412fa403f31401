import Showrunner.Time.Stamp

/-!
# Moments of a rule

The occurrences of a rule are wall readings of the clock that its start is read from. This may be
a clock of which nothing is known, one with a fixed offset, or that of a zone, whose offset
depends on the reading. Moments of one clock are compared by what it shows, others by their
instants. Where the offset of one is not known, or is as long as a day, they do not compare.
-/

namespace Showrunner

namespace Recurrence

open Calendar

/-- A zone: its name, its offset at each wall reading, and whether the reading comes twice. -/
structure Zone where
  name : List Char
  offset : Wall → Int
  isTwofold : Wall → Bool

/-- What is known of a clock. -/
inductive Dial
  | bare
  | fixed (offset : Int)
  | zone (zone : Zone)

/-- Decide whether two clocks are one. -/
def Dial.shares : Dial → Dial → Bool
  | .bare, .bare => true
  | .fixed a, .fixed b => a = b
  | .zone a, .zone b => a.name = b.name
  | _, _ => false

/-- A wall reading and the clock that shows it. -/
structure Moment where
  wall : Wall
  dial : Dial

namespace Moment

/-- A moment of universal time. -/
def utc (w : Wall) : Moment := ⟨w, .fixed 0⟩

/-- The offset from universal time, if it is known. -/
def offset (m : Moment) : Option Int :=
  match m.dial with
  | .bare => none
  | .fixed offset => some offset
  | .zone z => some (z.offset m.wall)

/-- A moment as a stamp. -/
def stamp (m : Moment) : Stamp := ⟨m.wall, m.offset⟩

/-- The instant of a moment. -/
def instant (m : Moment) : Int := m.stamp.instant

/-- Decide whether a moment knows its offset. -/
def isAware (m : Moment) : Bool := m.offset.isSome

/-- Decide whether the offset of a moment is shorter than a day, if it is known. -/
def isSound (m : Moment) : Bool := m.offset.all fun offset => offset.natAbs < microsPerDay

/-- Decide whether the wall reading of a moment comes twice. -/
def isTwofold (m : Moment) : Bool :=
  match m.dial with
  | .zone z => z.isTwofold m.wall
  | _ => false

/-- Decide whether two moments compare. -/
def comparable (m n : Moment) : Bool :=
  m.dial.shares n.dial || (m.isAware == n.isAware && m.isSound && n.isSound)

/-- Decide whether a moment comes before another one. -/
def before (m n : Moment) : Bool :=
  if m.dial.shares n.dial then m.wall < n.wall else m.instant < n.instant

/-- Decide whether two moments are the same. Of two clocks, a reading that comes twice is never the
same as another one. -/
def same (m n : Moment) : Bool :=
  if m.dial.shares n.dial then m.wall = n.wall
  else m.comparable n && m.instant = n.instant && !m.isTwofold && !n.isTwofold

end Moment

end Recurrence

end Showrunner
