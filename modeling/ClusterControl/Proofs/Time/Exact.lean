import ClusterControl.Time.Rational
import Mathlib.Algebra.Order.Field.Rat
import Mathlib.Tactic.FieldSimp
import Mathlib.Tactic.Linarith
import Mathlib.Tactic.Positivity

/-!
# Exact clocks

On an exact clock the instants form an ordered group, so that no part of a sleep is lost to rounding, and
the count of strides is one that no timeout outlasts.
-/

namespace ClusterControl.Time

variable {τ : Type} [Time τ]

/-- The duration of so many sleeps of one length. -/
def times (d : τ) : Nat → τ
  | 0 => 0
  | n + 1 => times d n + d

variable (τ) in
class Exact : Prop where
  le_refl (a : τ) : a ≤ a
  le_trans {a b c : τ} : a ≤ b → b ≤ c → a ≤ c
  le_antisymm {a b : τ} : a ≤ b → b ≤ a → a = b
  le_total (a b : τ) : a ≤ b ∨ b ≤ a
  lt_iff_not_ge {a b : τ} : a < b ↔ ¬ b ≤ a
  add_zero (a : τ) : a + 0 = a
  add_comm (a b : τ) : a + b = b + a
  add_assoc (a b c : τ) : a + b + c = a + (b + c)
  sub_add_cancel (a b : τ) : a - b + b = a
  add_le_add_iff_right {a b : τ} (c : τ) : a + c ≤ b + c ↔ a ≤ b
  inRange (n : Int) : Time.inRange τ n = true
  le_times_strides {interval timeout : τ} :
    0 < interval → 0 ≤ timeout → timeout ≤ times interval (strides interval timeout)

namespace Exact

variable [Exact τ]

theorem le_sub_iff {a b c : τ} : a ≤ b - c ↔ a + c ≤ b := by
  rw [← add_le_add_iff_right c, sub_add_cancel]

end Exact

/-! ## Quotients -/

theorem times_rat (d : Rat) (n : Nat) : times d n = n * d := by
  induction n with
  | zero => simp [times]
  | succ n ih =>
      rw [times, ih]
      push_cast
      exact (add_one_mul (n : Rat) d).symm

theorem le_times_strides_rat {interval timeout : Rat} (hi : 0 < interval) :
    timeout ≤ times interval (strides interval timeout) := by
  rw [times_rat]
  have hceil : timeout / interval ≤ ((timeout / interval).ceil.toNat : Rat) := by
    have h : timeout / interval ≤ ((timeout / interval).ceil : Rat) := Rat.le_ceil
    have hnat : (timeout / interval).ceil ≤ ((timeout / interval).ceil.toNat : Int) := Int.self_le_toNat _
    have hcast : ((timeout / interval).ceil : Rat) ≤ ((timeout / interval).ceil.toNat : Int) :=
      Int.cast_le.mpr hnat
    exact_mod_cast h.trans hcast
  calc timeout = timeout / interval * interval := by field_simp
    _ ≤ _ := mul_le_mul_of_nonneg_right hceil hi.le

instance : Exact Rat where
  le_refl := le_refl
  le_trans := le_trans
  le_antisymm := le_antisymm
  le_total := le_total
  lt_iff_not_ge := lt_iff_not_ge
  add_zero := add_zero
  add_comm := add_comm
  add_assoc := add_assoc
  sub_add_cancel := sub_add_cancel
  add_le_add_iff_right c := add_le_add_iff_right c
  inRange _ := rfl
  le_times_strides hi _ := le_times_strides_rat hi

end ClusterControl.Time
