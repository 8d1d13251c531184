import TableAlgebra.Json.Double
import TableAlgebra.Text

/-!
# Decimal numbers

A number with a fraction or an exponent is a double-precision number, or what is beyond, and is
shown in the fewest digits that stand for it.
-/

namespace TableAlgebra

inductive Decimal where
  | finite (negative : Bool) (x : Double)
  | infinite (negative : Bool)
  | nan
  deriving Repr, DecidableEq

namespace Decimal

def isZero : Decimal → Bool
  | finite _ x => x.isZero
  | _ => false

/-- The digits without the zeros at the end. -/
def significant (ds : List Char) : List Char := (ds.reverse.dropWhile (· = '0')).reverse

/-- Digits with the point after the first of them, and the power of ten. -/
def scientific (ds : List Char) (e : Int) : List Char :=
  let fraction := if ds.length ≤ 1 then [] else '.' :: ds.tail
  let power := Nat.toDigits 10 e.natAbs
  ds.take 1 ++ fraction ++ ['e', if e < 0 then '-' else '+'] ++
    List.replicate (2 - power.length) '0' ++ power

/-- Digits with the point in its place; `e` is the power of ten of the first digit. -/
def positional (ds : List Char) (e : Int) : List Char :=
  if e < 0 then ['0', '.'] ++ List.replicate (-e - 1).toNat '0' ++ ds
  else
    let n := e.toNat + 1
    let fraction := ds.drop n
    ds.take n ++ List.replicate (n - ds.length) '0' ++ ['.'] ++
      (if fraction.isEmpty then ['0'] else fraction)

/-- The digits of the number without zeros at the end, with the point in its place from a
ten-thousandth up to ten to the sixteenth, and with a power of ten outside. -/
def text : Decimal → Text
  | nan => "nan"
  | infinite negative => if negative then "-inf" else "inf"
  | finite negative x =>
    let (c, e) := if x.isZero then (0, 0) else x.shortest
    let ds := Nat.toDigits 10 c
    let first : Int := ds.length - 1 + e
    let shown :=
      if c = 0 then ['0', '.', '0']
      else if -4 ≤ first && first < 16 then positional (significant ds) first
      else scientific (significant ds) first
    (if negative then '-' :: shown else shown).map .char

end Decimal

end TableAlgebra
