/-!
Numbers as signed quotients of naturals, and the nearest natural to a quotient. Every text form of a
number is computed from this view, so no digit depends on floating-point arithmetic.
-/

namespace ClusterControl.Decimal

/-- The sign is kept beside the size because zero has two signs. -/
inductive Exact where
  | nan
  | infinite (negative : Bool)
  | finite (negative : Bool) (num den : Nat)
  deriving Repr, DecidableEq, Inhabited

/-- A positive double is `significand * 2 ^ (power - 1075)`. -/
structure Binary where
  significand : Nat
  power : Nat

namespace Binary

/-- Exponent field zero holds the subnormal numbers, which have no hidden bit. -/
def ofFields (exponent fraction : Nat) : Binary :=
  if exponent = 0 then ⟨fraction, 1⟩ else ⟨Nat.pow 2 52 + fraction, exponent⟩

def num (b : Binary) : Nat := b.significand * Nat.pow 2 (b.power - 1075)

def den (b : Binary) : Nat := Nat.pow 2 (1075 - b.power)

/-- Below a power of two the doubles lie twice as dense. -/
def narrowBelow (b : Binary) : Bool := b.significand == Nat.pow 2 52 && 1 < b.power

end Binary

/-! ## Fields of a double -/

def signBit (x : Float) : Bool := x.toBits.toNat / Nat.pow 2 63 == 1

def exponentField (x : Float) : Nat := x.toBits.toNat / Nat.pow 2 52 % Nat.pow 2 11

def fractionField (x : Float) : Nat := x.toBits.toNat % Nat.pow 2 52

def binary (x : Float) : Binary := .ofFields (exponentField x) (fractionField x)

namespace Exact

def ofFloat (x : Float) : Exact :=
  if exponentField x = 2047 then
    if fractionField x = 0 then .infinite (signBit x) else .nan
  else .finite (signBit x) (binary x).num (binary x).den

def ofInt (n : Int) : Exact := .finite (n < 0) n.natAbs 1

end Exact

/-! ## Rounding -/

/-- The nearest natural to `num / den`; a half goes to the even neighbour. -/
def roundDiv (num den : Nat) : Nat :=
  let q := num / den
  let r := num % den
  if 2 * r < den then q
  else if den < 2 * r then q + 1
  else q + q % 2

/-- The rounded quotient is off by at most half a unit. -/
theorem roundDiv_near (num : Nat) {den : Nat} (h : 0 < den) :
    2 * num ≤ 2 * (roundDiv num den * den) + den ∧
      2 * (roundDiv num den * den) ≤ 2 * num + den := by
  have split := Nat.div_add_mod num den
  have small := Nat.mod_lt num h
  have next : (num / den + 1) * den = den * (num / den) + den := by
    rw [Nat.add_mul, Nat.mul_comm, Nat.one_mul]
  have same : num / den * den = den * (num / den) := Nat.mul_comm ..
  unfold roundDiv
  dsimp only
  split
  · omega
  · split
    · omega
    · rcases Nat.mod_two_eq_zero_or_one (num / den) with even | odd
      · rw [even, Nat.add_zero]
        omega
      · rw [odd]
        omega

/-- `num / den` in units of `10 ^ k`, as a quotient. -/
def inUnits (num den : Nat) (k : Int) : Nat × Nat :=
  (num * Nat.pow 10 (-k).toNat, den * Nat.pow 10 k.toNat)

def digitCount (n : Nat) : Nat := (toString n).length

/-- The `e` with `10 ^ e ≤ num / den < 10 ^ (e + 1)`: the digit counts leave two choices. -/
def magnitude (num den : Nat) : Int :=
  let e : Int := (digitCount num : Int) - digitCount den
  let (n, d) := inUnits num den e
  if d ≤ n then e else e - 1

end ClusterControl.Decimal
