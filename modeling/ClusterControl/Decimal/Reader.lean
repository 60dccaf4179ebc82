import ClusterControl.Text.Blank

/-!
Reading a number from text: an optional sign, digits with an optional point among them, an optional
power of ten. Blanks may stand around the whole, or single underscores inside it, but not both.
-/

namespace ClusterControl.Decimal

/-- Digits read from the front, as the number they write and their count, and what follows. -/
def takeDigits : List Char → Nat → Nat → (Nat × Nat) × List Char
  | [], n, count => ((n, count), [])
  | c :: cs, n, count =>
    if c.isDigit then takeDigits cs (10 * n + (c.toNat - '0'.toNat)) (count + 1)
    else ((n, count), c :: cs)

def takeSign : List Char → Bool × List Char
  | '-' :: cs => (true, cs)
  | '+' :: cs => (false, cs)
  | cs => (false, cs)

/-- The power of ten that ends a number; nothing may follow it. -/
def power? : List Char → Option Int
  | [] => some 0
  | c :: cs =>
    if c == 'e' || c == 'E' then
      let (negative, cs) := takeSign cs
      match takeDigits cs 0 0 with
      | ((_, 0), _) => none
      | ((n, _), []) => some (if negative then -(n : Int) else n)
      | _ => none
    else none

/-- Digits before and after the point together, and the power of ten they are multiplied by. -/
def scaled? (cs : List Char) : Option (Nat × Int) :=
  let ((whole, before), rest) := takeDigits cs 0 0
  let ((all, total), rest) := match rest with
    | '.' :: rest => takeDigits rest whole before
    | rest => ((whole, before), rest)
  if total = 0 then none
  else (power? rest).map fun e => (all, e - ((total - before : Nat) : Int))

/-- The double nearest to `n * 10 ^ k`. Powers beyond the bounds give what the bounds give, infinity or
zero, so they are not computed. -/
def nearest (negative : Bool) (n : Nat) (k : Int) : Float :=
  let k := max (-(n.log2 + 400 : Int)) (min k 400)
  let size := if n = 0 then 0.0 else Float.ofScientific n (k < 0) k.natAbs
  if negative then -size else size

def unsigned? (negative : Bool) (cs : List Char) : Option Float :=
  let name := String.ofList (cs.map Char.toLower)
  if name == "inf" || name == "infinity" then some (if negative then -(1.0 / 0.0) else 1.0 / 0.0)
  else if name == "nan" then some (0.0 / 0.0)
  else (scaled? cs).map fun (n, k) => nearest negative n k

def plain? (cs : List Char) : Option Float :=
  let (negative, cs) := takeSign cs
  unsigned? negative cs

/-- An underscore neither begins nor ends the text, nor stands beside another one. -/
def underscored (cs : List Char) : Bool :=
  cs.head? != some '_' && cs.getLast? != some '_' &&
    !(cs.zip cs.tail).any fun (a, b) => a == '_' && b == '_'

def read? (s : String) : Option Float :=
  let cs := s.toList
  if cs.contains '_' then
    if underscored cs then plain? (cs.filter (· != '_')) else none
  else plain? (Text.trim cs)

end ClusterControl.Decimal
