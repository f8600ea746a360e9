namespace TabKey.Decimal

structure Ratio where
  num : Nat
  den : Nat
deriving DecidableEq, Repr

namespace Ratio

def ofNat (n : Nat) : Ratio := ⟨n, 1⟩

def scale (base : Nat) (e : Int) (r : Ratio) : Ratio :=
  if 0 ≤ e then ⟨r.num * Nat.pow base e.toNat, r.den⟩
  else ⟨r.num, r.den * Nat.pow base (-e).toNat⟩

def lt (r s : Ratio) : Bool := r.num * s.den < s.num * r.den

def le (r s : Ratio) : Bool := r.num * s.den ≤ s.num * r.den

def floor (r : Ratio) : Nat := r.num / r.den

/-- Nearest natural, a half to the even neighbour. -/
def round (r : Ratio) : Nat :=
  let twice := 2 * (r.num % r.den)
  if twice < r.den || (twice == r.den && r.floor % 2 == 0) then r.floor else r.floor + 1

end Ratio

def width (n : Nat) : Nat := (Nat.toDigits 10 n).length

end TabKey.Decimal
