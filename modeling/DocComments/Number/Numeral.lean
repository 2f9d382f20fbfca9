/-! Numerals as they are written: a sign, digits, a fraction and an exponent. -/
namespace DocComments

def tenPow (n : Nat) : Nat :=
  Nat.pow 10 n

/-- The greatest number of 64 bits. -/
def greatestWord : Nat := 0xffffffffffffffff

/-- A numeral. The fraction is given by its digits, none if no point is written. -/
structure Numeral where
  negative : Bool := false
  whole : Nat
  fraction : List Char := []
  exponent : Option Int := none
  deriving DecidableEq, Repr

namespace Numeral

def digit (c : Char) : Nat :=
  c.toNat - '0'.toNat

def ofDigits (digits : List Char) : Nat :=
  digits.foldl (fun n c => 10 * n + digit c) 0

def digits (n : Nat) : List Char :=
  Nat.toDigits 10 n

def integerText (n : Int) : List Char :=
  if n < 0 then '-' :: digits n.natAbs else digits n.natAbs

def text (n : Numeral) : List Char :=
  (if n.negative then ['-'] else []) ++ digits n.whole ++
    (if n.fraction.isEmpty then [] else '.' :: n.fraction) ++
    match n.exponent with
    | some e => 'e' :: integerText e
    | none => []

end Numeral
end DocComments
