import ClusterControl.Decimal.Rounded

/-!
Instants and durations. The library computes with them only through `Time`, so it runs on doubles and
can be reasoned about on exact numbers.
-/

namespace ClusterControl

class Time (τ : Type) extends Zero τ, Add τ, Sub τ, LE τ, LT τ where
  decLe (a b : τ) : Decidable (a ≤ b)
  decLt (a b : τ) : Decidable (a < b)
  ofInt : Int → τ
  /-- Not every whole number is small enough to be a time. -/
  inRange : Int → Bool
  ofFloat : Float → τ
  exact : τ → Decimal.Exact
  /-- The text that reads back as this number. -/
  faithful : τ → String
  /-- A count of sleeps of `interval` that no wait of `timeout` outlasts. -/
  strides (interval timeout : τ) : Nat

namespace Time

variable {τ : Type} [Time τ]

instance (a b : τ) : Decidable (a ≤ b) := decLe a b

instance (a b : τ) : Decidable (a < b) := decLt a b

/-- Six places after the point. -/
def micros (t : τ) : String := Decimal.fixed 6 (exact t)

/-- Two places after the point. -/
def hundredths (t : τ) : String := Decimal.fixed 2 (exact t)

def brief (t : τ) : String := Decimal.brief (exact t)

end Time

/-- Sleeps of the one length needed to fill the other, rounded up. -/
def Decimal.Exact.strides : Decimal.Exact → Decimal.Exact → Nat
  | .finite _ a b, .finite _ c d => (c * b + a * d - 1) / (a * d)
  | _, _ => 0

/-- Seconds as a caller writes them: a whole number keeps its own text. -/
inductive Seconds (τ : Type) where
  | whole (n : Int)
  | real (t : τ)
  deriving Repr, DecidableEq, Inhabited

namespace Seconds

variable {τ : Type} [Time τ]

def amount : Seconds τ → τ
  | .whole n => Time.ofInt n
  | .real t => t

def inRange : Seconds τ → Bool
  | .whole n => Time.inRange τ n
  | .real _ => true

def text : Seconds τ → String
  | .whole n => toString n
  | .real t => Time.faithful t

def isZero (s : Seconds τ) : Bool := s.amount ≤ 0 && 0 ≤ s.amount

@[simp] theorem amount_real (t : τ) : (real t).amount = t := rfl

end Seconds

end ClusterControl
