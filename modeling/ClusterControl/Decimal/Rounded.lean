import ClusterControl.Decimal.Layout

/-!
Numbers rounded for display: to a fixed count of places after the point, or to a fixed count of
significant digits.
-/

namespace ClusterControl.Decimal

/-- A point stands before the last `places` digits of `n`, padded to one digit before it. -/
def pointed (places n : Nat) : String :=
  let ds := toString n
  let ds := (zeros (places + 1 - ds.length) ++ ds).toList
  let whole := ds.length - places
  String.ofList (ds.take whole) ++ "." ++ String.ofList (ds.drop whole)

/-- The sign of the number stays even where the rounded digits are all zero. -/
def fixed (places : Nat) : Exact → String
  | .nan => "nan"
  | .infinite negative => infinityText negative
  | .finite negative num den =>
    signText negative ++ pointed places (roundDiv (num * Nat.pow 10 places) den)

/-- At most six significant digits. -/
def brief : Exact → String
  | .nan => "nan"
  | .infinite negative => infinityText negative
  | .finite negative num den =>
    if num = 0 then signText negative ++ "0"
    else
      let k := magnitude num den - 5
      let (n, d) := inUnits num den k
      Layout.compact.text negative (roundDiv n d) k

end ClusterControl.Decimal
