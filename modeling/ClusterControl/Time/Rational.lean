import ClusterControl.Time.Basic

/-!
Exact time. No sleep is lost to rounding, so the count of sleeps that fill a timeout is the quotient
rounded up.
-/

namespace ClusterControl

/-- A double as a quotient; what is no number has no place on an exact clock and counts as zero. -/
def Decimal.Exact.toRat : Decimal.Exact → Rat
  | .finite negative num den => mkRat (if negative then -(num : Int) else num) den
  | _ => 0

instance : Time Rat where
  zero := 0
  decLe a b := inferInstanceAs (Decidable (a ≤ b))
  decLt a b := inferInstanceAs (Decidable (a < b))
  ofInt n := n
  inRange _ := true
  ofFloat x := (Decimal.Exact.ofFloat x).toRat
  exact t := .finite (t < 0) t.num.natAbs t.den
  faithful t := toString t.num ++ "/" ++ toString t.den
  strides interval timeout := (timeout / interval).ceil.toNat

end ClusterControl
