/-!
# Decimals and binary numbers

The number nearest to a decimal is found by rounding to nearest. The other way around a finite double is
`m * 2 ^ q`. The reals that round to it form an interval around it, and the shortest decimal in that interval
names it: of the grids with one digit, two digits and so on the first that has a point in the interval wins,
and of two such points the nearer.
-/

namespace ImportOrder

/-- The number `digits * 10 ^ exponent`. -/
structure Decimal where
  digits : Nat
  exponent : Int
deriving DecidableEq, Repr

namespace Decimal

/-- A positive binary number `m * 2 ^ q`. The gap to its lower neighbour is half the gap to its upper
one when `narrow` holds. -/
structure Binary where
  m : Nat
  q : Int
  narrow : Bool

/-- Numerator and denominator of the factor that turns quarters of `2 ^ q` into units of `10 ^ e`. -/
def scale (q e : Int) : Nat × Nat :=
  (Nat.pow 2 (q - 2).toNat * Nat.pow 10 (-e).toNat, Nat.pow 2 (2 - q).toNat * Nat.pow 10 e.toNat)

/-- Whether `c * 10 ^ e` rounds to the number; the ends of the interval belong to it when `m` is even. -/
def Binary.holds (b : Binary) (e : Int) (c : Nat) : Bool :=
  let (num, den) := scale b.q e
  let low := (4 * b.m - if b.narrow then 1 else 2) * num
  let high := (4 * b.m + 2) * num
  let point := c * den
  if b.m % 2 = 0 then decide (low ≤ point) && decide (point ≤ high)
  else decide (low < point) && decide (point < high)

/-- The number of decimal digits before the point; zero or less for numbers below one. -/
def Binary.magnitude (b : Binary) : Int :=
  let den := Nat.pow 2 (-b.q).toNat
  let whole := b.m * Nat.pow 2 b.q.toNat / den
  if whole = 0 then
    Int.negOfNat ((List.range 400).takeWhile fun j => b.m * Nat.pow 10 (j + 1) < den).length
  else (Nat.toDigits 10 whole).length

/-- The point of the grid of step `10 ^ e` that names the number, if one does. -/
def Binary.onGrid? (b : Binary) (e : Int) : Option Nat :=
  let (num, den) := scale b.q e
  let value := 4 * b.m * num
  let below := value / den
  match b.holds e below, b.holds e (below + 1) with
  | true, true =>
    let up := (below + 1) * den - value
    let down := value - below * den
    if down < up ∨ (down = up ∧ below % 2 = 0) then some below else some (below + 1)
  | true, false => some below
  | false, true => some (below + 1)
  | false, false => none

/-- Takes factors of ten out of the digits. -/
def trim : Nat → Decimal → Decimal
  | 0, d => d
  | fuel + 1, d =>
    if d.digits % 10 = 0 ∧ d.digits ≠ 0 then trim fuel ⟨d.digits / 10, d.exponent + 1⟩ else d

/-- The shortest decimal that names the number. -/
def Binary.shortest (b : Binary) : Decimal :=
  let found := (List.range 17).findSome? fun (n : Nat) =>
    let e := b.magnitude - (n + 1)
    (b.onGrid? e).map fun c => (⟨c, e⟩ : Decimal)
  trim 20 (found.getD ⟨b.m, b.q⟩)

/-- The parts of a finite double other than zero, by its bit pattern and without its sign. -/
def Binary.ofBits (bits : UInt64) : Binary :=
  let fraction := (bits &&& 0xfffffffffffff).toNat
  let field := ((bits >>> 52) &&& 0x7ff).toNat
  if field = 0 then ⟨fraction, -1074, false⟩
  else ⟨fraction + 0x10000000000000, (field : Int) - 1075, fraction = 0 ∧ field > 1⟩

/-- The exponents beyond which a decimal is too large, or with its digits too small, for any double. They are
decided by the exponent alone, so that no huge power of ten is computed. -/
def reach : Nat := 400

/-- The double nearest to a decimal. -/
def nearest (d : Decimal) : Float :=
  if d.digits = 0 then 0.0
  else if (reach : Int) < d.exponent then 1.0 / 0.0
  else if d.exponent < -(reach + Nat.log2 d.digits : Nat) then 0.0
  else Float.ofScientific d.digits (d.exponent < 0) d.exponent.natAbs

end Decimal

end ImportOrder
