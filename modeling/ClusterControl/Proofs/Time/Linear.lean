import ClusterControl.Proofs.Time.Exact
import Mathlib.Data.Rat.Floor

/-!
# Clocks in a linear order

Much of what a wait does rests on the order of instants and durations alone, whatever becomes of them when they are
added or subtracted.
-/

namespace ClusterControl.Time

/-- Times are linearly ordered. Every whole number is a time, and the longer of two timeouts allows no fewer checks. -/
class Linear (τ : Type) [Time τ] : Prop where
  le_refl (a : τ) : a ≤ a
  le_trans {a b c : τ} : a ≤ b → b ≤ c → a ≤ c
  le_antisymm {a b : τ} : a ≤ b → b ≤ a → a = b
  le_total (a b : τ) : a ≤ b ∨ b ≤ a
  lt_iff_not_ge {a b : τ} : a < b ↔ ¬ b ≤ a
  inRange (n : Int) : Time.inRange τ n = true
  strides_mono {interval s t : τ} : 0 < interval → s ≤ t → strides interval s ≤ strides interval t

theorem Linear.inRange_seconds {τ : Type} [Time τ] [Linear τ] (s : Seconds τ) : s.inRange = true := by
  cases s with
  | whole n => exact inRange n
  | real t => rfl

/-! ## Quotients -/

/-- The sleeps that fill a timeout are as many as the quotient, rounded up. -/
theorem strides_rat (interval timeout : Rat) : strides interval timeout = ⌈timeout / interval⌉₊ := by
  have hceil : (timeout / interval).ceil = ⌈timeout / interval⌉ :=
    eq_of_forall_ge_iff fun z => by rw [Rat.ceil_le_iff, Int.ceil_le]
  show (timeout / interval).ceil.toNat = _
  rw [hceil, Int.ceil_toNat]

instance : Linear Rat where
  le_refl := le_refl
  le_trans := le_trans
  le_antisymm := le_antisymm
  le_total := le_total
  lt_iff_not_ge := lt_iff_not_ge
  inRange _ := rfl
  strides_mono hi h := by
    rw [strides_rat, strides_rat]
    exact Nat.ceil_mono (div_le_div_of_nonneg_right h hi.le)

end ClusterControl.Time
