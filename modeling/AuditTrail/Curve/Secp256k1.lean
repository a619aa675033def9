import AuditTrail.Text.Hex
/-!
# The curve secp256k1

The points of `y² = x³ + 7` over the integers modulo a prime, with addition and multiples. Sums are
computed in projective form `(x / z², y / z³)`, so that one division at the end suffices.
-/

namespace AuditTrail.Secp256k1

/-- The prime that coordinates are taken modulo. -/
def fieldPrime : Nat := 0xfffffffffffffffffffffffffffffffffffffffffffffffffffffffefffffc2f

/-- The number of points, a prime: multiples of the base point repeat after it. -/
def order : Nat := 0xfffffffffffffffffffffffffffffffebaaedce6af48a03bbfd25e8cd0364141

/-- A power modulo `m`; the fuel bounds the bits of the exponent that are used. -/
def powMod (m : Nat) : Nat → Nat → Nat → Nat
  | 0, _, _ => 1 % m
  | fuel + 1, base, exponent =>
    if exponent = 0 then 1 % m
    else
      let half := powMod m fuel (base * base % m) (exponent / 2)
      if exponent % 2 = 1 then half * base % m else half

/-- The inverse modulo a prime below `2 ^ 256`, zero for zero. -/
def inverse (prime n : Nat) : Nat := powMod prime 256 n (prime - 2)

/-- A point other than the neutral one, or any pair of coordinates taken for one. -/
structure Point where
  x : Nat
  y : Nat
deriving DecidableEq, Repr

/-- The pair lies on the curve. -/
def Point.isOnCurve (p : Point) : Bool :=
  decide (p.x < fieldPrime ∧ p.y < fieldPrime ∧
    p.y * p.y % fieldPrime = (p.x * p.x * p.x + 7) % fieldPrime)

/-- The base point. -/
def base : Point where
  x := 0x79be667ef9dcbbac55a06295ce870b07029bfcdb2dce28d959f2815b16f81798
  y := 0x483ada7726a3c4655da4fbfc0e1108a8fd17b448a68554199c47d08ffb10d4b8

/-- Projective coordinates; `z = 0` is the neutral point. -/
structure Projective where
  x : Nat
  y : Nat
  z : Nat

/-- The neutral point. -/
def Projective.zero : Projective := ⟨1, 1, 0⟩

def Point.projective (p : Point) : Projective := ⟨p.x, p.y, 1⟩

/-- A difference modulo the prime of two numbers below it. -/
def minus (a b : Nat) : Nat := (a + fieldPrime - b) % fieldPrime

/-- A product modulo the prime. -/
def times (a b : Nat) : Nat := a * b % fieldPrime

/-- Twice a point. -/
def Projective.double (p : Projective) : Projective :=
  if p.z = 0 ∨ p.y = 0 then .zero
  else
    let ySquared := times p.y p.y
    let s := times 4 (times p.x ySquared)
    let m := times 3 (times p.x p.x)
    let x := minus (times m m) (times 2 s)
    let y := minus (times m (minus s x)) (times 8 (times ySquared ySquared))
    ⟨x, y, times 2 (times p.y p.z)⟩

/-- The sum of two points. -/
def Projective.add (p q : Projective) : Projective :=
  if p.z = 0 then q
  else if q.z = 0 then p
  else
    let pzz := times p.z p.z
    let qzz := times q.z q.z
    let u := times p.x qzz
    let u' := times q.x pzz
    let s := times p.y (times q.z qzz)
    let s' := times q.y (times p.z pzz)
    if u = u' then (if s = s' then p.double else .zero)
    else
      let h := minus u' u
      let r := minus s' s
      let hh := times h h
      let hhh := times h hh
      let v := times u hh
      let x := minus (minus (times r r) hhh) (times 2 v)
      let y := minus (times r (minus v x)) (times s hhh)
      ⟨x, y, times h (times p.z q.z)⟩

/-- A multiple of a point, by the bits of the factor from the lowest on; the fuel bounds how many
of them are used. -/
def Projective.multiple : Nat → Nat → Projective → Projective
  | 0, _, _ => .zero
  | fuel + 1, factor, p =>
    if factor = 0 then .zero
    else
      let rest := Projective.multiple fuel (factor / 2) p.double
      if factor % 2 = 1 then p.add rest else rest

/-- The point in plain coordinates, nothing for the neutral one. -/
def Projective.plain? (p : Projective) : Option Point :=
  if p.z = 0 then none
  else
    let inv := inverse fieldPrime p.z
    let square := times inv inv
    some ⟨times p.x square, times p.y (times square inv)⟩

/-- A multiple of a point by a factor below `2 ^ 256`. -/
def Point.multiple (p : Point) (factor : Nat) : Projective :=
  p.projective.multiple 256 factor

/-- The square root of a square modulo the prime, which leaves the remainder 3 modulo 4. -/
def squareRoot (n : Nat) : Nat := powMod fieldPrime 256 n ((fieldPrime + 1) / 4)

/-- The point with a given first coordinate whose second one is odd or even. -/
def Point.lift? (x : Nat) (odd : Bool) : Option Point :=
  let root := squareRoot ((x * x * x + 7) % fieldPrime)
  let y := if (root % 2 == 1) == odd then root else fieldPrime - root
  let p : Point := ⟨x, y⟩
  if p.isOnCurve then some p else none

/-- The thirty-three bytes of a point: the parity of its second coordinate, and the first one. -/
def Point.compressed (p : Point) : List UInt8 :=
  (if p.y % 2 = 1 then 3 else 2) :: Text.Hex.ofNat 32 p.x

/-- The point that bytes stand for: thirty-three with the parity of the second coordinate, or
sixty-five with the coordinate itself, whose parity the first byte may repeat. -/
def Point.ofBytes? : List UInt8 → Option Point
  | [] => none
  | tag :: rest =>
    if rest.length = 32 ∧ (tag = 2 ∨ tag = 3) then
      let x := Text.Hex.toNat rest
      if x < fieldPrime then Point.lift? x (tag == 3) else none
    else if rest.length = 64 ∧ (tag = 4 ∨ tag = 6 ∨ tag = 7) then
      let p : Point := ⟨Text.Hex.toNat (rest.take 32), Text.Hex.toNat (rest.drop 32)⟩
      if p.isOnCurve && (tag == 4 || (p.y % 2 == 1) == (tag == 7)) then some p else none
    else none

end AuditTrail.Secp256k1
