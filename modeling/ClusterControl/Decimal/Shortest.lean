import ClusterControl.Decimal.Layout

/-!
The fewest digits that read back as the same double. A decimal reads back as a double exactly when it
lies between the midpoints to the two neighbouring doubles; a midpoint itself goes to the even
significand.
-/

namespace ClusterControl.Decimal

/-- All numbers over one denominator: a double, and the midpoints to its neighbours. -/
structure Rounding where
  lower : Nat
  value : Nat
  upper : Nat
  den : Nat
  closed : Bool

namespace Rounding

def ofBinary (b : Binary) : Rounding :=
  let quarter := Nat.pow 2 (b.power - 1075)
  { lower := (4 * b.significand - if b.narrowBelow then 1 else 2) * quarter
    value := 4 * b.significand * quarter
    upper := (4 * b.significand + 2) * quarter
    den := 4 * b.den
    closed := b.significand % 2 == 0 }

/-- The decimal `c * 10 ^ k` reads back as the double. -/
def holds (r : Rounding) (c : Nat) (k : Int) : Bool :=
  let x := c * Nat.pow 10 k.toNat * r.den
  let unit := Nat.pow 10 (-k).toNat
  if r.closed then r.lower * unit ≤ x && x ≤ r.upper * unit
  else r.lower * unit < x && x < r.upper * unit

/-- The decimal with at most `n` digits that is nearest to the double, among those that read back:
only the two neighbours of the double on the grid can do so. -/
def onGrid? (r : Rounding) (n : Nat) : Option (Nat × Int) :=
  let k : Int := magnitude r.value r.den + 1 - n
  let (num, den) := inUnits r.value r.den k
  let below := num / den
  let nearest := roundDiv num den
  let other := if nearest = below then below + 1 else below
  if r.holds nearest k then some (nearest, k)
  else if r.holds other k then some (other, k)
  else none

/-- Seventeen digits always read back. -/
def digits (r : Rounding) : Nat × Int :=
  ((List.range 17).findSome? fun n => r.onGrid? (n + 1)).getD (0, 0)

end Rounding

/-- The text of a double that reads back as it. -/
def shortest (x : Float) : String :=
  match Exact.ofFloat x with
  | .nan => "nan"
  | .infinite negative => infinityText negative
  | .finite negative num _ =>
    if num = 0 then Layout.faithful.text negative 0 0
    else
      let (digits, k) := (Rounding.ofBinary (binary x)).digits
      Layout.faithful.text negative digits k

end ClusterControl.Decimal
