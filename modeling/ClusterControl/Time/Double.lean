import ClusterControl.Decimal.Shortest
import ClusterControl.Time.Basic

/-!
Time in doubles. Rounding can make a sleep shorter than it is long, down to nothing at all; twice the
exact count of sleeps covers every clock that still moves, and a constant covers the one that does not.
-/

namespace ClusterControl

/-- The double nearest to a whole number, infinite where that number is too large. -/
def Decimal.ofInt (n : Int) : Float :=
  let size := Float.ofScientific n.natAbs false 0
  if n < 0 then -size else size

instance : Time Float where
  zero := 0.0
  decLe a b := inferInstanceAs (Decidable (a ≤ b))
  decLt a b := inferInstanceAs (Decidable (a < b))
  ofInt := Decimal.ofInt
  inRange n := (Decimal.ofInt n).isFinite
  ofFloat x := x
  exact := Decimal.Exact.ofFloat
  faithful := Decimal.shortest
  strides interval timeout :=
    2 * (Decimal.Exact.ofFloat interval).strides (.ofFloat timeout) + 1000000

end ClusterControl
