/-!
# Double-precision numbers

A double is a mantissa of up to 53 bits times a power of two. A decimal number stands for the
double nearest to it, of two equally near ones for the one with the even mantissa. Of the decimals
that stand for a double, `shortest` gives one with the fewest digits, the nearest of those.
-/

namespace TableAlgebra

/-- The number `mantissa * 2 ^ exponent`. -/
structure Double where
  mantissa : Nat
  exponent : Int
  deriving Repr, DecidableEq

namespace Double

/-- The whole number nearest to a quotient; a half goes to the even neighbour. -/
def roundDiv (n d : Nat) : Nat :=
  let q := n / d
  let twice := 2 * (n % d)
  if twice < d || (twice = d && q % 2 = 0) then q else q + 1

/-- The power of two, or of ten, if it is not below one. -/
def whole (base : Nat) (e : Int) : Nat := Nat.pow base e.toNat

/-- `c * 10 ^ e / 2 ^ q`, as a numerator and a denominator. -/
def ratio (c : Nat) (e q : Int) : Nat × Nat :=
  (c * whole 10 e * whole 2 (-q), whole 10 (-e) * whole 2 q)

def leastExponent : Int := -1074

/-- The power of two at which `c * 10 ^ e` has a mantissa of 53 bits, but not below the least. -/
def exponentFor (c : Nat) (e : Int) : Int :=
  let (n, d) := ratio c e 0
  let q := (n.log2 : Int) - d.log2 - 53
  let (n, d) := ratio c e q
  max leastExponent (if n / d < Nat.pow 2 53 then q else q + 1)

/-- The double nearest to `c * 10 ^ e`, without a bound on its exponent. -/
def ofDecimal (c : Nat) (e : Int) : Double :=
  let q := exponentFor c e
  let (n, d) := ratio c e q
  let m := roundDiv n d
  if m = Nat.pow 2 53 then ⟨Nat.pow 2 52, q + 1⟩ else ⟨m, q⟩

def isZero (x : Double) : Bool := x.mantissa = 0

/-- The digits and the power of ten of the number. -/
def exact (x : Double) : Nat × Int :=
  if 0 ≤ x.exponent then (x.mantissa * whole 2 x.exponent, 0)
  else (x.mantissa * whole 5 (-x.exponent), x.exponent)

/-- The decimals of at most `n` digits on either side of the number `c * 10 ^ e`, the nearer one
first. -/
def neighbours (n c : Nat) (e : Int) : List (Nat × Int) :=
  let cut := (Nat.toDigits 10 c).length - n
  let unit := Nat.pow 10 cut
  let near := roundDiv c unit
  let below := c / unit
  [(near, e + cut), (if near = below then below + 1 else below, e + cut)]

def mostDigits : Nat := 17

/-- A decimal with the fewest digits that stands for the number. -/
def shortest (x : Double) : Nat × Int :=
  let (c, e) := x.exact
  let candidates := (List.range mostDigits).flatMap fun n => neighbours (n + 1) c e
  (candidates.find? fun d => ofDecimal d.1 d.2 = x).getD (c, e)

end Double

end TableAlgebra
