import ClusterControl.Decimal.Exact

/-!
How the digits of a number are laid out: positional for middle magnitudes, with an exponent outside
them. The two layouts in use differ only in where positional writing ends and in what follows a whole
number.
-/

namespace ClusterControl.Decimal

def zeros (n : Nat) : String := String.ofList (List.replicate n '0')

def signText (negative : Bool) : String := if negative then "-" else ""

def infinityText (negative : Bool) : String := signText negative ++ "inf"

structure Layout where
  /-- Magnitudes from `10 ^ (-4)` up to this power of ten are written positionally. -/
  positionalBelow : Int
  afterWhole : String

namespace Layout

/-- Durations in messages. -/
def compact : Layout := ⟨6, ""⟩

/-- Numbers written so that they read back as the same double. -/
def faithful : Layout := ⟨16, ".0"⟩

/-- Digits `ds` with the point after the first one, times `10 ^ e`. -/
def exponential (ds : List Char) (e : Int) : String :=
  let mantissa := match ds with
    | [] => "0"
    | [d] => String.ofList [d]
    | d :: rest => String.ofList (d :: '.' :: rest)
  let size := toString e.natAbs
  mantissa ++ "e" ++ (if e < 0 then "-" else "+") ++ (if size.length < 2 then "0" ++ size else size)

def positional (l : Layout) (ds : List Char) (e : Int) : String :=
  if e < 0 then "0." ++ zeros (e.natAbs - 1) ++ String.ofList ds
  else
    let whole := e.toNat + 1
    if ds.length ≤ whole then String.ofList ds ++ zeros (whole - ds.length) ++ l.afterWhole
    else String.ofList (ds.take whole) ++ "." ++ String.ofList (ds.drop whole)

/-- The number `digits * 10 ^ k`; trailing zeros of the digits carry no information. -/
def text (l : Layout) (negative : Bool) (digits : Nat) (k : Int) : String :=
  if digits = 0 then signText negative ++ "0" ++ l.afterWhole
  else
    let all := (toString digits).toList
    let e : Int := k + all.length - 1
    let ds := (all.reverse.dropWhile (· == '0')).reverse
    signText negative ++
      if -4 ≤ e && e < l.positionalBelow then l.positional ds e else exponential ds e

end Layout

end ClusterControl.Decimal
