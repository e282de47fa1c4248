import EventSourcing.Binary64.Basic

/-!
# Jitter

Clients that failed together should not come back together, so a delay is shifted by a random
offset. A source of offsets is asked for one draw after another; for a spread it gives an offset
between minus the spread and the spread.
-/

namespace EventSourcing

namespace Retry

/-- A source of offsets: the offset of each draw, counted from zero, for a spread. -/
def JitterSource := Nat → Binary64 → Binary64

namespace JitterSource

/-- The 64 random bits of each draw, from a seed. The steps of the counter are spread over all
values and then mixed. -/
def bits (seed : UInt64) (draw : Nat) : UInt64 :=
  let x := seed + (UInt64.ofNat draw + 1) * 0x9e3779b97f4a7c15
  let x := (x ^^^ (x >>> 30)) * 0xbf58476d1ce4e5b9
  let x := (x ^^^ (x >>> 27)) * 0x94d049bb133111eb
  x ^^^ (x >>> 31)

/-- The number of steps between the ends of a range. -/
def steps : Nat := (1 <<< 52) - 1

/-- The point that a number of steps from minus the spread towards the spread reaches. -/
def pointOf (spread : Binary64) (step : Nat) : Binary64 :=
  match spread with
  | .finite _ units _ =>
    if 2 * step < steps then .ofQuotient true (units * (steps - 2 * step)) steps
    else .ofQuotient false (units * (2 * step - steps)) steps
  | _ => .zero

/-- The width of the range from minus a finite spread to the spread, and one step more. -/
def reach (spread : Binary64) : Binary64 :=
  match spread with
  | .finite _ units _ => .ofQuotient false (2 * units * (steps + 1)) steps
  | _ => .zero

/-- One draw from the range. Where the spread is not positive or not finite the offset is zero; a
range has no draw if its width and one step more is too large to be finite. -/
def draw? (seed : UInt64) (draw : Nat) (spread : Binary64) : Option Binary64 :=
  if spread.le .zero || !spread.isFinite then some .zero
  else if !(reach spread).isFinite then none
  else some (pointOf spread ((bits seed draw).toNat % (steps + 1)))

/-- Offsets spread evenly, the same for the same seed. -/
def uniform (seed : UInt64) : JitterSource :=
  fun draw spread => (draw? seed draw spread).getD .zero

/-- No offset at all. -/
def still : JitterSource := fun _ _ => .zero

end JitterSource

end Retry

end EventSourcing
