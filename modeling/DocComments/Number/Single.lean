import DocComments.Number.Binary
import DocComments.Number.Numeral

/-! Single-precision numbers by their bits: how a numeral is read as one, and its shortest text. -/
namespace DocComments

structure Single where
  bits : UInt32
  deriving DecidableEq, Repr

namespace Numeral

/-- Cuts digits off the end of a significand that is too large, and counts them. -/
def cutSignificand : Nat → Nat → Nat × Nat
  | 0, significand => (significand, 0)
  | fuel + 1, significand =>
    if significand ≤ greatestWord then (significand, 0)
    else
      let (cut, dropped) := cutSignificand fuel (significand / 10)
      (cut, dropped + 1)

/-- Takes over digits of the fraction while the significand has room, and counts them. -/
def extendSignificand (significand : Nat) : List Char → Nat × Nat
  | [] => (significand, 0)
  | c :: rest =>
    let next := 10 * significand + digit c
    if next ≤ greatestWord then
      let (extended, taken) := extendSignificand next rest
      (extended, taken + 1)
    else (significand, 0)

/-- The significand and the power of ten by which a numeral is valued. -/
def scaled (n : Numeral) : Nat × Int :=
  let (whole, dropped) := cutSignificand (digits n.whole).length n.whole
  let (significand, taken) := extendSignificand whole n.fraction
  (significand, (dropped : Int) - taken + n.exponent.getD 0)

def powerOfTen? (n : Nat) : Option Dyadic :=
  BinaryFormat.double.round? (tenPow n) 1

/-- The value times a power of ten, rounded after each step. One step moves by at most 308 decimal
places; of so many small steps the first few already end at zero. -/
def scale? : Nat → Dyadic → Int → Option Dyadic
  | 0, value, _ => some value
  | fuel + 1, value, power =>
    if value.mantissa = 0 then some value
    else if 308 < power then none
    else if 0 ≤ power then (powerOfTen? power.toNat).bind (BinaryFormat.double.mul? value)
    else if -308 ≤ power then (powerOfTen? (-power).toNat).bind (BinaryFormat.double.div? value)
    else ((powerOfTen? 308).bind (BinaryFormat.double.div? value)).bind fun smaller =>
      scale? fuel smaller (power + 308)

/-- The size of the numeral in double precision, unless it is too large. -/
def magnitude? (n : Numeral) : Option Dyadic :=
  let (significand, power) := n.scaled
  (BinaryFormat.double.round? significand 1).bind fun value => scale? 8 value power

/-- Whether the numeral is an integer that needs no rounding before it is narrowed. -/
def isWordInteger (n : Numeral) : Bool :=
  n.fraction.isEmpty && n.exponent.isNone &&
    if n.negative then 0 < n.whole && n.whole ≤ 0x8000000000000000 else n.whole ≤ greatestWord

end Numeral

namespace Single

/-- The number with the given sign and size; a size out of range is infinite. -/
def ofMagnitude (negative : Bool) (size : Option Dyadic) : Single :=
  let magnitude : Nat := match size with
    | some d => (d.exponent + 149).toNat * twoPow 23 + d.mantissa
    | none => 255 * twoPow 23
  ⟨UInt32.ofNat (magnitude + if negative then twoPow 31 else 0)⟩

/-- The number nearest to a numeral. Only a numeral beyond double precision has none. Numerals that
are no word-sized integers are rounded to double precision first. -/
def ofNumeral? (n : Numeral) : Option Single :=
  if n.isWordInteger then
    some (ofMagnitude n.negative (BinaryFormat.single.round? n.whole 1))
  else
    n.magnitude?.map fun d => ofMagnitude n.negative (BinaryFormat.single.round? d.num d.den)

def isNegative (x : Single) : Bool :=
  twoPow 31 ≤ x.bits.toNat

/-- The size, unless it is infinite or the bits are no number. -/
def magnitude? (x : Single) : Option Dyadic :=
  let biased : Nat := x.bits.toNat / twoPow 23 % 256
  let fraction : Nat := x.bits.toNat % twoPow 23
  if biased = 255 then none
  else if biased = 0 then some ⟨fraction, -149⟩
  else some ⟨fraction + twoPow 23, (biased : Int) - 150⟩

/-- The fraction `n * 10 ^ power` as numerator and denominator. -/
def decimalFraction (n : Nat) (power : Int) : Nat × Nat :=
  (n * tenPow power.toNat, tenPow (-power).toNat)

/-- Whether the decimal `n * 10 ^ power` reads back as the positive number of size `d`: it lies no
further off than half the way to the neighbours, and at half the way only if the mantissa is even. -/
def readsBack (d : Dyadic) (n : Nat) (power : Int) : Bool :=
  let (num, den) := decimalFraction n power
  -- Everything below is in quarters of the last place of the mantissa.
  let place := Dyadic.mk 1 (d.exponent - 2)
  let decimal := num * place.den
  let unit := den * place.num
  let below := if d.mantissa == twoPow 23 && -149 < d.exponent then 1 else 2
  let low := (4 * d.mantissa - below) * unit
  let high := (4 * d.mantissa + 2) * unit
  if d.mantissa % 2 == 0 then low ≤ decimal && decimal ≤ high else low < decimal && decimal < high

/-- The exponent of the least power of ten that is greater than the fraction, searched for from the
given one upward. -/
def decimalOrder (num den : Nat) : Nat → Int → Int
  | 0, order => order
  | fuel + 1, order =>
    let (powerNum, powerDen) := decimalFraction 1 order
    if num * powerDen < powerNum * den then order else decimalOrder num den fuel (order + 1)

/-- The shortest decimal that reads back, of two the nearer, as digits and a power of ten. -/
def shortestFrom (d : Dyadic) (order : Int) : Nat → Nat → Nat × Int
  | 0, _ => (d.num, 0)
  | fuel + 1, count =>
    let power := order - count
    let (num, den) := decimalFraction 1 power
    let scaledNum := d.num * den
    let scaledDen := d.den * num
    let down := scaledNum / scaledDen
    let best := nearest scaledNum scaledDen
    let other := if best == down then down + 1 else down
    if readsBack d best power then (best, power)
    else if readsBack d other power then (other, power)
    else shortestFrom d order fuel (count + 1)

def withoutZeros : Nat → Nat × Int → Nat × Int
  | 0, decimal => decimal
  | fuel + 1, (n, power) =>
    if n % 10 == 0 && n != 0 then withoutZeros fuel (n / 10, power + 1) else (n, power)

def shortest (d : Dyadic) : Nat × Int :=
  withoutZeros 12 (shortestFrom d (decimalOrder d.num d.den 100 (-46)) 12 1)

/-- The numeral of a decimal: positional for orders from -5 to 13, with a fraction always, and
scientific beyond. -/
def layOut (negative : Bool) (n : Nat) (power : Int) : Numeral :=
  let digits := Numeral.digits n
  let order : Int := digits.length + power
  if 0 ≤ power && order ≤ 13 then
    { negative, whole := n * tenPow power.toNat, fraction := ['0'] }
  else if 0 < order && order ≤ 13 then
    { negative
      whole := Numeral.ofDigits (digits.take order.toNat)
      fraction := digits.drop order.toNat }
  else if -6 < order && order ≤ 0 then
    { negative, whole := 0, fraction := List.replicate (-order).toNat '0' ++ digits }
  else
    { negative
      whole := Numeral.ofDigits (digits.take 1)
      fraction := digits.drop 1
      exponent := some (order - 1) }

/-- The shortest numeral that reads back, for a finite number. -/
def numeral? (x : Single) : Option Numeral :=
  x.magnitude?.map fun d =>
    if d.mantissa = 0 then { negative := x.isNegative, whole := 0, fraction := ['0'] }
    else
      let (n, power) := shortest d
      layOut x.isNegative n power

end Single
end DocComments
