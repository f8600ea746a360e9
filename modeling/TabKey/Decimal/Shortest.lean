import TabKey.Decimal.Binary64

/-! The fewest decimal digits that read back to a binary number, found among the two neighbours of the number on ever
finer decimal grids. -/
namespace TabKey.Decimal

structure Scientific where
  digits : Nat
  exponent : Int
deriving DecidableEq, Repr

namespace Scientific

def toRatio (d : Scientific) : Ratio := (Ratio.ofNat d.digits).scale 10 d.exponent

def positional (d : Scientific) : String :=
  let digits := Nat.toDigits 10 d.digits
  let point : Int := digits.length + d.exponent
  let zeros (n : Int) : List Char := List.replicate n.toNat '0'
  let text :=
    if 0 ≤ d.exponent then digits ++ zeros d.exponent ++ ['.', '0']
    else if 0 < point then digits.take point.toNat ++ ['.'] ++ digits.drop point.toNat
    else ['0', '.'] ++ zeros (-point) ++ digits
  String.ofList text

end Scientific

namespace Binary64

/-- A decimal lies where it rounds to `x`: within half a step on both sides, a quarter below where
the steps get smaller, the ends included for an even significand. -/
def holds (x : Binary64) (d : Scientific) : Bool :=
  let below := if x.significand = Nat.pow 2 (precision - 1) ∧ minExponent < x.exponent then 1 else 2
  let low := (Ratio.ofNat (4 * x.significand - below)).scale 2 (x.exponent - 2)
  let high := (Ratio.ofNat (4 * x.significand + 2)).scale 2 (x.exponent - 2)
  if x.significand % 2 = 0 then low.le d.toRatio && d.toRatio.le high
  else low.lt d.toRatio && d.toRatio.lt high

/-- The `e` with `10 ^ (e - 1) ≤ r < 10 ^ e`, for a positive fraction. -/
def magnitude (r : Ratio) : Int :=
  if r.den ≤ r.num then width r.floor
  else
    let shift := width r.den - width r.num
    if r.den ≤ r.num * Nat.pow 10 shift then 1 - (shift : Int) else -(shift : Int)

/-- The neighbours of `x` among decimals of `n` digits, the nearer one first and the upper one when
both are as near. The upper one may be the next power of ten, which is written with one digit. -/
def neighbours (x : Binary64) (n : Nat) : List Scientific :=
  let exponent := magnitude x.toRatio - n
  let scaled := x.toRatio.scale 10 (-exponent)
  let low : Scientific := ⟨scaled.floor, exponent⟩
  let high : Scientific :=
    if scaled.floor + 1 = Nat.pow 10 n then ⟨1, exponent + n⟩ else ⟨scaled.floor + 1, exponent⟩
  if 2 * (scaled.num % scaled.den) < scaled.den then [low, high] else [high, low]

/-- The fewest digits that read back to `x`, and of those the nearest, a tie going up. Seventeen
always do. -/
def shortest (x : Binary64) : Scientific :=
  if x.significand = 0 then ⟨0, 0⟩
  else
    let found := (List.range 17).findSome? fun n => (x.neighbours (n + 1)).find? x.holds
    found.getD ⟨0, 0⟩

end Binary64

end TabKey.Decimal
