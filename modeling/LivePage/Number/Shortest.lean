import LivePage.Number.Binary64

/-!
The shortest decimal that reads back as a given binary number. For each count of digits only the two
decimals around the number matter: if any decimal of that count rounds to the number, one of those
two does. The first count with such a decimal wins, of two the nearer, of two equally near the one
with an even last digit.
-/

namespace LivePage

/-- A positive decimal `digits * 10 ^ exponent`. -/
structure Decimal where
  digits : Nat
  exponent : Int
  deriving DecidableEq, Inhabited

namespace Decimal

/-- Removes zeros from the end of the digits, at most `fuel` of them. -/
def dropZeros : Nat → Decimal → Decimal
  | 0, d => d
  | fuel + 1, d =>
      if d.digits ≠ 0 && d.digits % 10 = 0 then dropZeros fuel ⟨d.digits / 10, d.exponent + 1⟩
      else d

/-- The least `j` at which `num * 10 ^ j` reaches `den`, starting from `j` and trying `fuel` steps.
-/
def shiftToReach (den : Nat) : Nat → Nat → Nat → Nat
  | 0, j, _ => j
  | fuel + 1, j, num => if den ≤ num then j else shiftToReach den fuel (j + 1) (num * 10)

/-- The exponent `p` with `10 ^ (p - 1) ≤ num / den < 10 ^ p`. -/
def magnitude (num den : Nat) : Int :=
  if den ≤ num then ((Nat.toDigits 10 (num / den)).length : Int)
  else 1 - (shiftToReach den 400 0 num : Int)

end Decimal

namespace Binary64

/-- Tries `count` digits and then more, up to `fuel` further counts. -/
def shortestFrom (x : Binary64) (p : Int) : Nat → Nat → Decimal
  | 0, _ => ⟨0, 0⟩
  | fuel + 1, count =>
      let num := x.mantissa * powerOfTwo x.exponent
      let den := powerOfTwo scale
      let u : Int := p - count
      let un := if 0 ≤ u then powerOfTen u.toNat else 1
      let ud := if 0 ≤ u then 1 else powerOfTen (-u).toNat
      let exact := 2 * num * ud
      let above := powerOfTwo x.exponent * ud
      let below :=
        if x.mantissa = powerOfTwo (precision - 1) && 0 < x.exponent then
          powerOfTwo (x.exponent - 1) * ud
        else above
      let unit := 2 * un * den
      let low := exact / unit
      let closed := x.mantissa % 2 = 0
      let lowHit := exact < low * unit + below || (closed && exact = low * unit + below)
      let high := low + 1
      let highHit := high * unit < exact + above || (closed && high * unit = exact + above)
      let lowGap := exact - low * unit
      let highGap := high * unit - exact
      if lowHit && (!highHit || lowGap < highGap || (lowGap = highGap && low % 2 = 0)) then
        Decimal.dropZeros 400 ⟨low, u⟩
      else if highHit then Decimal.dropZeros 400 ⟨high, u⟩
      else shortestFrom x p fuel (count + 1)

/-- The shortest decimal of the magnitude; zero has the digits `0`. -/
def shortest (x : Binary64) : Decimal :=
  if x.isZero then ⟨0, 0⟩
  else shortestFrom x (Decimal.magnitude (x.mantissa * powerOfTwo x.exponent) (powerOfTwo scale)) 18 1

end Binary64
end LivePage
