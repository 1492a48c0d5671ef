import Sierra.Felt
import Sierra.Host.Signature

/-!
# Curves

Affine points of `y² = x³ + a·x + b` over a prime field, with `(0, 0)` for the point at infinity.
Coordinates need not be reduced; each curve says what its addition makes of points that are not on
it.
-/

namespace Sierra

structure Curve where
  prime : Nat
  a : Nat
  b : Nat
deriving DecidableEq, Repr

abbrev Point := Int × Int

namespace Curve

def secp256k1 : Curve := ⟨pow2 256 - pow2 32 - 977, 0, 7⟩

def secp256r1 : Curve :=
  ⟨0xffffffff00000001000000000000000000000000ffffffffffffffffffffffff,
    0xffffffff00000001000000000000000000000000fffffffffffffffffffffffc,
    0x5ac635d8aa3a93e7b3ebbd55769886bc651d06b0cc53b0f63bce3c3e27d2604b⟩

def ofName : Host.CurveName → Curve
  | .k1 => secp256k1
  | .r1 => secp256r1

def infinity : Point := (0, 0)

def reduce (c : Curve) (n : Int) : Int := n.emod c.prime

def inField (c : Curve) (p : Point) : Bool :=
  0 ≤ p.1 && 0 ≤ p.2 && p.1 < c.prime && p.2 < c.prime

def satisfies (c : Curve) (p : Point) : Bool :=
  c.reduce (p.2 * p.2) == c.reduce (p.1 * p.1 * p.1 + c.a * p.1 + c.b)

def contains (c : Curve) (p : Point) : Bool := p == infinity || c.satisfies p

def div? (c : Curve) (num den : Int) : Option Int :=
  if c.reduce den = 0 then none
  else
    let inverse := Felt.powMod c.prime (c.reduce den).toNat (c.prime - 2)
    some (c.reduce (c.reduce num * inverse))

/-- The third point on a line through two points, mirrored. -/
def third (c : Curve) (slope : Int) (p q : Point) : Point :=
  let x := c.reduce (slope * slope - p.1 - q.1)
  (x, c.reduce ((p.1 - x) * slope - p.2))

def tangent? (c : Curve) (p : Point) : Option Int := c.div? (3 * p.1 * p.1 + c.a) (2 * p.2)

def chord? (c : Curve) (p q : Point) : Option Int := c.div? (q.2 - p.2) (q.1 - p.1)

/-- Points with one abscissa are doubled unless they are opposite. There is no sum where the slope
has no denominator. -/
def add? (c : Curve) (p q : Point) : Option Point :=
  if p = infinity then some q
  else if q = infinity then some p
  else if p.1 = q.1 then
    if c.reduce (p.2 + q.2) = 0 then some infinity
    else (c.tangent? p).map fun slope => c.third slope p q
  else (c.chord? p q).map fun slope => c.third slope p q

/-- Points are reduced first; those with one abscissa and different ordinates add up to infinity. -/
def addReduced (c : Curve) (p q : Point) : Point :=
  let p := (c.reduce p.1, c.reduce p.2)
  let q := (c.reduce q.1, c.reduce q.2)
  if p = infinity then q
  else if q = infinity then p
  else if p.1 = q.1 then
    if p.2 ≠ q.2 then infinity
    else ((c.tangent? p).map fun slope => c.third slope p q).getD infinity
  else ((c.chord? p q).map fun slope => c.third slope p q).getD infinity

end Curve

end Sierra
