import TabKey.Decimal.Ratio

namespace TabKey.Decimal

structure Binary64 where
  significand : Nat
  exponent : Int
deriving DecidableEq, Repr

namespace Binary64

def precision : Nat := 53

def minExponent : Int := -1074

def maxExponent : Int := 971

def zero : Binary64 := ⟨0, minExponent⟩

def exponentFor (r : Ratio) : Int :=
  let low : Int := r.num.log2 - r.den.log2 - precision
  let fits := (r.scale 2 (-low)).lt (.ofNat (Nat.pow 2 precision))
  max minExponent (if fits then low else low + 1)

/-- The number nearest to a positive fraction, a tie to the even significand; none when that is
past the largest one. -/
def ofRatio? (r : Ratio) : Option Binary64 :=
  let exponent := exponentFor r
  let significand := (r.scale 2 (-exponent)).round
  let carried := significand == Nat.pow 2 precision
  let x : Binary64 :=
    if carried then ⟨Nat.pow 2 (precision - 1), exponent + 1⟩ else ⟨significand, exponent⟩
  if maxExponent < x.exponent then none else some x

/-- The number nearest to `digits * 10 ^ exponent`. Exponents far out of range are settled by the
order of magnitude alone. -/
def ofDecimal? (digits : Nat) (exponent : Int) : Option Binary64 :=
  let magnitude : Int := width digits + exponent
  if digits = 0 || magnitude < -400 then some zero
  else if 400 < magnitude then none
  else ofRatio? ((Ratio.ofNat digits).scale 10 exponent)

def toRatio (x : Binary64) : Ratio := (Ratio.ofNat x.significand).scale 2 x.exponent

end Binary64

end TabKey.Decimal
