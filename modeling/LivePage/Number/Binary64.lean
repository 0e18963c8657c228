/-!
Finite binary floating-point numbers of 64 bits, kept as exact integers: a sign, and a magnitude
`mantissa * 2 ^ exponent / 2 ^ 1074`. A result is the exact quotient rounded once, to nearest with
ties to the even mantissa.
-/

namespace LivePage

/-- Two to the power `n`. -/
def powerOfTwo (n : Nat) : Nat := Nat.pow 2 n

/-- Ten to the power `n`. -/
def powerOfTen (n : Nat) : Nat := Nat.pow 10 n

structure Binary64 where
  negative : Bool
  mantissa : Nat
  exponent : Nat
  deriving DecidableEq, Inhabited

namespace Binary64

def scale : Nat := 1074

def precision : Nat := 53

def maxExponent : Nat := 2045

def zero (negative : Bool) : Binary64 := ⟨negative, 0, 0⟩

def isZero (x : Binary64) : Bool := x.mantissa = 0

def neg (x : Binary64) : Binary64 := { x with negative := !x.negative }

def abs (x : Binary64) : Binary64 := { x with negative := false }

/-- The quotient rounded to an integer, a half to the even neighbour. -/
def divNearest (num den : Nat) : Nat :=
  let q := num / den
  let twice := 2 * (num % den)
  if twice < den || (twice = den && q % 2 = 0) then q else q + 1

/-- The magnitude nearest to `num / den`, or nothing beyond the finite range. -/
def ofQuotient? (negative : Bool) (num den : Nat) : Option Binary64 :=
  let scaled := num * powerOfTwo scale
  let whole := scaled / den
  let e := if whole < powerOfTwo precision then 0 else Nat.log2 whole - (precision - 1)
  let m := divNearest scaled (den * powerOfTwo e)
  let (m, e) := if m = powerOfTwo precision then (powerOfTwo (precision - 1), e + 1) else (m, e)
  if maxExponent < e then none else some ⟨negative, m, e⟩

def ofNat? (n : Nat) : Option Binary64 := ofQuotient? false n 1

def mul? (x y : Binary64) : Option Binary64 :=
  ofQuotient? (x.negative != y.negative)
    (x.mantissa * y.mantissa * powerOfTwo (x.exponent + y.exponent)) (powerOfTwo (2 * scale))

/-- The quotient of magnitudes; a zero divisor has none. -/
def div? (x y : Binary64) : Option Binary64 :=
  if y.isZero then none
  else ofQuotient? (x.negative != y.negative)
    (x.mantissa * powerOfTwo x.exponent) (y.mantissa * powerOfTwo y.exponent)

end Binary64
end LivePage
