import AuditTrail.CoreInstances
import AuditTrail.Decimal.Binary64
/-!
# The shortest decimal of a double

Among the decimals that read back as a double, the one with the fewest digits, and of two with
equally few the nearer; a `Tie` says which one it is when both are as near. Seventeen digits always
suffice; the exact expansion stands behind them, so that the result reads back whatever is known
about that bound.

A `Layout` says where such a decimal is written out in full and where with an exponent.
-/

namespace AuditTrail.Decimal

open scoped CoreInstances

/-- The number `coefficient · 10 ^ exponent`. -/
structure Numeral where
  coefficient : Nat
  exponent : Int
deriving DecidableEq, Repr

/-- The number without the zeros that end its coefficient; the fuel bounds how many are dropped. -/
def Numeral.stripped : Nat → Numeral → Numeral
  | 0, d => d
  | fuel + 1, d =>
    if d.coefficient ≠ 0 ∧ d.coefficient % 10 = 0 then
      Numeral.stripped fuel ⟨d.coefficient / 10, d.exponent + 1⟩
    else d

/-- The exponent of the first decimal digit of `num / den`, a positive quotient. -/
def leadingExponent (num den : Nat) : Int :=
  let guess : Int := (digitCount num : Int) - digitCount den
  let reached :=
    if 0 ≤ guess then decide (den * 10 ^ guess.toNat ≤ num)
    else decide (den ≤ num * 10 ^ (-guess).toNat)
  if reached then guess else guess - 1

/-- Where a value goes that lies halfway between two decimals. -/
inductive Tie where
  /-- To the one whose last digit is even. -/
  | toEven
  /-- To the larger one. -/
  | up
deriving DecidableEq, Repr

/-- The smaller of two neighbours is preferred when the value is a fraction `rest / whole` above
it. -/
def Tie.prefersBelow (tie : Tie) (below rest whole : Nat) : Bool :=
  decide (2 * rest < whole) || (2 * rest == whole && tie == .toEven && below % 2 == 0)

/-- The two neighbours of `num / den` on the grid `10 ^ p`, the nearer first. -/
def neighbours (tie : Tie) (num den : Nat) (p : Int) : List Numeral :=
  let (n, d) := if 0 ≤ p then (num, den * 10 ^ p.toNat) else (num * 10 ^ (-p).toNat, den)
  let below : Numeral := ⟨n / d, p⟩
  let above : Numeral := ⟨n / d + 1, p⟩
  if tie.prefersBelow (n / d) (n % d) d then [below, above] else [above, below]

/-- A decimal reads back as a double when the double is the nearest one to it. -/
def Numeral.readsBack (x : Binary64) (d : Numeral) : Bool :=
  Binary64.ofDecimal? x.isNegative d.coefficient d.exponent == some x

/-- The exact value of a finite double as a decimal. -/
def exactDecimal (x : Binary64) : Numeral :=
  if 0 ≤ x.scale then ⟨x.significand * 2 ^ x.scale.toNat, 0⟩
  else ⟨x.significand * 5 ^ (-x.scale).toNat, x.scale⟩

/-- The shortest decimal of a finite double that is not zero, as it comes from the search. -/
def shortestGrid (tie : Tie) (x : Binary64) : Numeral :=
  let (num, den) := x.fraction
  let lead := leadingExponent num den
  let grids := (List.range 17).flatMap fun (k : Nat) => neighbours tie num den (lead - k)
  (grids.find? (Numeral.readsBack x)).getD (exactDecimal x)

/-- The shortest decimal of a finite double. -/
def shortest (tie : Tie) (x : Binary64) : Numeral :=
  if x.significand = 0 then ⟨0, 0⟩ else (shortestGrid tie x).stripped 400

/-- How a decimal is laid out on the line. -/
structure Layout where
  /-- The exponents of a first digit for which no exponent is written. -/
  isPositional : Int → Bool
  /-- What ends a positional number that has no fraction. -/
  wholeEnding : List Char
  tie : Tie

/-- Numbers inside JSON: positional from `10 ^ -5` below `10 ^ 16`, always with a fraction. -/
def Layout.json : Layout := ⟨fun e => decide (-5 ≤ e ∧ e ≤ 15), ['.', '0'], .toEven⟩

/-- Numbers inside messages: always positional, a whole number without a fraction. -/
def Layout.message : Layout := ⟨fun _ => true, [], .up⟩

/-- The digits of a number. -/
def digits (n : Nat) : List Char := Nat.toDigits 10 n

/-- An exponent, its sign always written. -/
def exponentMark (e : Int) : List Char :=
  ['e', if 0 ≤ e then '+' else '-'] ++ digits e.natAbs

/-- A decimal laid out on the line. -/
def Layout.write (layout : Layout) (d : Numeral) : List Char :=
  let ds := digits d.coefficient
  let lead : Int := d.exponent + ds.length - 1
  if layout.isPositional lead then
    if 0 ≤ d.exponent then
      ds ++ List.replicate d.exponent.toNat '0' ++ layout.wholeEnding
    else if 0 ≤ lead then
      ds.take (lead.toNat + 1) ++ ['.'] ++ ds.drop (lead.toNat + 1)
    else
      ['0', '.'] ++ List.replicate (-lead - 1).toNat '0' ++ ds
  else
    match ds with
    | [] => exponentMark lead
    | [only] => only :: exponentMark lead
    | first :: others => first :: '.' :: others ++ exponentMark lead

/-- The text of a double in a layout. -/
def Binary64.write (layout : Layout) (x : Binary64) : List Char :=
  if x.isNaN then ['N', 'a', 'N']
  else
    let sign := if x.isNegative then ['-'] else []
    if x.isFinite then sign ++ layout.write (shortest layout.tie x) else sign ++ ['i', 'n', 'f']

/-- The text of a double inside a message. -/
def Binary64.messageText (x : Binary64) : String :=
  String.ofList (x.write Layout.message)

end AuditTrail.Decimal
