/-! Rounding to binary floating point, in exact arithmetic on natural numbers. -/
namespace DocComments

def twoPow (n : Nat) : Nat :=
  Nat.pow 2 n

/-- The value `mantissa * 2 ^ exponent`. -/
structure Dyadic where
  mantissa : Nat
  exponent : Int
  deriving DecidableEq, Repr

namespace Dyadic

def num (d : Dyadic) : Nat :=
  d.mantissa * twoPow d.exponent.toNat

def den (d : Dyadic) : Nat :=
  twoPow (-d.exponent).toNat

end Dyadic

/-- The whole number nearest to a fraction; of two, the even one. -/
def nearest (num den : Nat) : Nat :=
  let quotient := num / den
  let rest := num % den
  if 2 * rest < den then quotient
  else if den < 2 * rest then quotient + 1
  else quotient + quotient % 2

/-- The exponent of the greatest power of two that is no greater than the fraction. -/
def binaryOrder (num den : Nat) : Int :=
  let order : Int := (num.log2 : Int) - den.log2
  if den * twoPow order.toNat ≤ num * twoPow (-order).toNat then order else order - 1

/-- A binary format with mantissas below `2 ^ precision` and exponents from `least` to `greatest`. -/
structure BinaryFormat where
  precision : Nat
  least : Int
  greatest : Int
  deriving DecidableEq, Repr

namespace BinaryFormat

def single : BinaryFormat := ⟨24, -149, 104⟩

def double : BinaryFormat := ⟨53, -1074, 971⟩

/-- The value of the format nearest to a fraction, ties to even, unless it is too large. -/
def round? (f : BinaryFormat) (num den : Nat) : Option Dyadic :=
  let exponent :=
    if num = 0 then f.least else max f.least (binaryOrder num den - (f.precision - 1 : Nat))
  let mantissa := nearest (num * twoPow (-exponent).toNat) (den * twoPow exponent.toNat)
  if f.greatest < exponent || (exponent == f.greatest && twoPow f.precision ≤ mantissa) then none
  else some { mantissa, exponent }

def mul? (f : BinaryFormat) (a b : Dyadic) : Option Dyadic :=
  f.round? (a.num * b.num) (a.den * b.den)

def div? (f : BinaryFormat) (a b : Dyadic) : Option Dyadic :=
  f.round? (a.num * b.den) (a.den * b.num)

end BinaryFormat
end DocComments
