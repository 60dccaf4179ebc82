import Mathlib.Data.Rat.Floor
import ClusterControl.Proofs.Time.Linear
import ClusterControl.Proofs.Wait.Answers
import ClusterControl.Proofs.Wait.Tries

/-!
# How often a wait checks

Nothing counts the checks of a wait. They are bounded because each begins one interval after the one before it has
ended, and because only the last may end with the timeout over.
-/

namespace ClusterControl

variable {τ α : Type}

namespace Poll

/-! ## When the tries begin -/

section Exact

variable [Time τ] [Time.Exact τ] {p : Poll τ} {check : Check τ α} {started : τ} {w : World τ}

/-- Every try but the first begins one interval after the one before it has ended. -/
theorem before_succ_now {left i : Nat} {x y : Try τ α} (hx : (p.triesFrom check started left w)[i]? = some x)
    (hy : (p.triesFrom check started left w)[i + 1]? = some y) :
    y.before.now = x.after.now + p.interval.amount := by
  induction left, w using p.loop_induction check started generalizing i with
  | exhausted w => cases hx
  | cancelled left w hc =>
      rw [(loop_reached hc check started (left + 1)).2] at hx
      cases hx
  | decided left w v o hc hr =>
      rw [(loop_decided hc hr started left).2] at hy
      cases hy
  | spent left w v z hc hr hspent =>
      rw [(loop_spent hc hr hspent left).2] at hy
      cases hy
  | later left w v z hc hr hvain ho ih =>
      rw [(loop_later hc hr hvain ho left).2] at hx
      rw [(loop_later hc hr hvain ho left).2, List.getElem?_cons_succ] at hy
      cases i with
      | succ i => exact ih hx hy
      | zero =>
          obtain rfl := Option.some.inj hx
          cases hrest : p.triesFrom check started left (v.pause p.interval.amount p.cancel) with
          | nil =>
              rw [hrest] at hy
              cases hy
          | cons z zs =>
              rw [hrest] at hy
              obtain rfl := Option.some.inj hy
              obtain ⟨hreached, hbefore⟩ := before_of_cons hrest
              have hv : v.reached p.cancel = false := (Bool.or_eq_false_iff.1 ho).2
              rw [pause_eq_waking hv] at hreached hbefore
              rw [hbefore]
              exact (waking_cases p v).resolve_left (Bool.eq_false_iff.1 hreached)

end Exact

/-! ## On rational clocks -/

variable {p : Poll Rat} {check : Check Rat α} {started : Rat} {w : World Rat}

/-- The checks that fit into a timeout: one at the start, and one after each sleep that begins within it. -/
def fitting (interval timeout : Seconds Rat) : Nat := ⌈timeout.amount / interval.amount⌉₊ + 1

theorem before_zero_now {left : Nat} {x : Try Rat α} (hx : (p.triesFrom check started left w)[0]? = some x) :
    x.before.now = w.now := by
  cases hxs : p.triesFrom check started left w with
  | nil =>
      rw [hxs] at hx
      cases hx
  | cons y ys =>
      rw [hxs] at hx
      obtain rfl := Option.some.inj hx
      rw [(before_of_cons hxs).2]

/-- A try begins after so many sleeps and after all that the tries before it took. -/
theorem before_now_eq {left i : Nat} {x : Try Rat α} (hx : (p.triesFrom check started left w)[i]? = some x) :
    x.before.now =
      w.now + i * p.interval.amount + (((p.triesFrom check started left w).take i).map Try.cost).sum := by
  induction i generalizing x with
  | zero =>
      rw [before_zero_now hx]
      simp
  | succ i ih =>
      obtain ⟨hi, _⟩ := List.getElem?_eq_some_iff.1 hx
      have hy := List.getElem?_eq_getElem (Nat.lt_of_succ_lt hi)
      have hprev := ih hy
      rw [before_succ_now hy hx, List.take_add_one, hy, Option.toList_some, List.map_append, List.sum_append,
        List.map_singleton, List.sum_singleton, Try.cost]
      push_cast
      linarith

theorem le_before_now {left i : Nat} {x : Try Rat α} (hf : ∀ x ∈ p.triesFrom check started left w, 0 ≤ x.cost)
    (hx : (p.triesFrom check started left w)[i]? = some x) : w.now + i * p.interval.amount ≤ x.before.now := by
  rw [before_now_eq hx]
  refine le_add_of_nonneg_right (List.sum_nonneg fun cost hcost => ?_)
  obtain ⟨y, hy, rfl⟩ := List.mem_map.1 hcost
  exact hf y (List.mem_of_mem_take hy)

theorem before_now_of_idle {left i : Nat} {x : Try Rat α} (hz : ∀ x ∈ p.triesFrom check started left w, x.cost = 0)
    (hx : (p.triesFrom check started left w)[i]? = some x) : x.before.now = w.now + i * p.interval.amount := by
  rw [before_now_eq hx]
  refine add_eq_left.2 (List.sum_eq_zero fun cost hcost => ?_)
  obtain ⟨y, hy, rfl⟩ := List.mem_map.1 hcost
  exact hz y (List.mem_of_mem_take hy)

/-! ## How many tries there are -/

theorem Undecided.elapsed_lt {x : Try Rat α} (h : p.Undecided started x) :
    x.after.now - started < p.timeout.amount :=
  lt_of_not_ge (of_decide_eq_false (Bool.or_eq_false_iff.1 h.isOver).1)

theorem length_triesFrom_le (hi : 0 < p.interval.amount) {left : Nat}
    (hf : ∀ x ∈ p.triesFrom check w.now left w, 0 ≤ x.cost)
    (hu : ∀ x ∈ (p.triesFrom check w.now left w).dropLast, p.Undecided w.now x) :
    (p.triesFrom check w.now left w).length ≤ fitting p.interval p.timeout := by
  -- With one try more, the try after so many sleeps would not be the last, and still end within the timeout.
  by_contra hmany
  let i := ⌈p.timeout.amount / p.interval.amount⌉₊
  have hlength : i + 1 < (p.triesFrom check w.now left w).length := Nat.lt_of_not_le hmany
  have hx := List.getElem?_eq_getElem (Nat.lt_of_succ_lt hlength)
  have hearly := (hu _ (getElem_mem_dropLast hlength)).elapsed_lt
  have hcost := hf _ (List.mem_of_getElem? hx)
  have hlate := le_before_now hf hx
  have hfull : p.timeout.amount ≤ i * p.interval.amount := (div_le_iff₀ hi).1 (Nat.le_ceil _)
  simp only [Try.cost] at hcost
  linarith

/-- A wait in which no time is lost ends by its rules, before it may make no more checks. -/
theorem settles (hf : ∀ x ∈ p.tries check w, 0 ≤ x.cost) : p.Settles check w := by
  intro hp
  have hi : 0 < p.interval.amount := lt_of_not_ge (arguments_of_none hp).1
  obtain ⟨hrun, htries⟩ := wait_of_none hp check w
  rw [htries] at hf
  rw [hrun, htries]
  rcases p.trail_or_exhausted check w.now p.checks w with htrail | ⟨hlength, hall⟩
  · exact htrail
  · have hle := length_triesFrom_le hi hf fun x hx => hall x (List.mem_of_mem_dropLast hx)
    rw [hlength, checks, Time.strides_rat, fitting] at hle
    omega

theorem length_tries_le (hf : ∀ x ∈ p.tries check w, 0 ≤ x.cost) :
    (p.tries check w).length ≤ fitting p.interval p.timeout := by
  cases hp : p.obstacle? with
  | some e =>
      rw [(wait_of_some hp check w).2]
      exact Nat.zero_le _
  | none =>
      have htrail := settles hf hp
      rw [(wait_of_none hp check w).2] at hf htrail ⊢
      exact length_triesFrom_le (lt_of_not_ge (arguments_of_none hp).1) hf htrail.undecided

/-! ## Waits in vain -/

/-- How a wait ends whose checks are all in vain. The last check, which nothing cuts short, is all that it can take
beyond the timeout and one interval. -/
structure Expires (p : Poll Rat) (check : Check Rat α) (w : World Rat) : Prop where
  settles : p.Settles check w
  timedOut : (p.wait check w).1 =
    .error (.timedOut p.description p.timeout ((p.wait check w).2.now - w.now))
  one_le : 1 ≤ (p.tries check w).length
  le_fitting : (p.tries check w).length ≤ fitting p.interval p.timeout
  eq_fitting : (∀ x ∈ p.tries check w, x.cost = 0) → (p.tries check w).length = fitting p.interval p.timeout
  timeout_le : p.timeout.amount ≤ (p.wait check w).2.now - w.now
  elapsed_lt : ∀ x ∈ (p.tries check w).getLast?,
    (p.wait check w).2.now - w.now < p.timeout.amount + p.interval.amount + x.cost

theorem obstacle_of_rat (hi : 0 < p.interval.amount) (ht : 0 ≤ p.timeout.amount) : p.obstacle? = none := by
  simp only [obstacle?, argumentProblem, if_neg (not_le_of_gt hi), if_neg (not_lt_of_ge ht),
    Time.Linear.inRange_seconds]
  rfl

section Last

variable {left : Nat} {front : List (Try Rat α)} {last : Try Rat α}

theorem elapsed_lt_of_last (hi : 0 < p.interval.amount) (ht : 0 ≤ p.timeout.amount)
    (hxs : p.triesFrom check w.now left w = front ++ [last]) (hu : ∀ x ∈ front, p.Undecided w.now x) :
    last.after.now - w.now < p.timeout.amount + p.interval.amount + last.cost := by
  have hlast : (p.triesFrom check w.now left w)[front.length]? = some last := by
    rw [hxs, List.getElem?_concat_length]
  rw [Try.cost]
  rcases List.eq_nil_or_concat' front with rfl | ⟨init, prev, rfl⟩
  · have hstart := before_zero_now hlast
    linarith
  · have hprev : (p.triesFrom check w.now left w)[init.length]? = some prev := by rw [hxs]; simp
    rw [List.length_append, List.length_singleton] at hlast
    have hstart := before_succ_now hprev hlast
    have hearly := (hu prev (List.mem_append_right _ (List.mem_singleton_self _))).elapsed_lt
    linarith

theorem fitting_le_of_last (hi : 0 < p.interval.amount) (hxs : p.triesFrom check w.now left w = front ++ [last])
    (hz : ∀ x ∈ p.triesFrom check w.now left w, x.cost = 0) (hlate : p.timeout.amount ≤ last.after.now - w.now) :
    fitting p.interval p.timeout ≤ front.length + 1 := by
  have hlast : (p.triesFrom check w.now left w)[front.length]? = some last := by
    rw [hxs, List.getElem?_concat_length]
  have hstart := before_now_of_idle hz hlast
  have hcost : last.after.now - last.before.now = 0 := hz last (List.mem_of_getElem? hlast)
  refine Nat.succ_le_succ (Nat.ceil_le.2 ((div_le_iff₀ hi).2 ?_))
  linarith

end Last

theorem expires (hp : p.cancel = none) (hi : 0 < p.interval.amount) (ht : 0 ≤ p.timeout.amount)
    (hvain : ∀ x ∈ p.tries check w, x.outcome = .ok none ∧ 0 ≤ x.cost) : p.Expires check w := by
  have hno := obstacle_of_rat hi ht
  have hf : ∀ x ∈ p.tries check w, 0 ≤ x.cost := fun x hx => (hvain x hx).2
  have htrail := settles hf hno
  obtain ⟨front, last, hxs, hover, hrun⟩ := htrail.in_vain hp fun x hx => (hvain x hx).1
  have hreached : last.after.reached p.cancel = false := by rw [hp]; rfl
  have hlate : p.timeout.amount ≤ last.after.now - w.now :=
    of_decide_eq_true ((isOver_of_unreached hreached).symm.trans hover)
  have hfrom : p.triesFrom check w.now p.checks w = front ++ [last] := (wait_of_none hno check w).2.symm.trans hxs
  have hlength : (p.tries check w).length = front.length + 1 := by
    rw [hxs, List.length_append, List.length_singleton]
  exact {
    settles := fun _ => htrail
    timedOut := by rw [hrun, ending_of_unreached hreached]
    one_le := by omega
    le_fitting := length_tries_le hf
    eq_fitting := fun hz => by
      refine Nat.le_antisymm (length_tries_le hf) ?_
      rw [(wait_of_none hno check w).2] at hz
      exact hlength ▸ fitting_le_of_last hi hfrom hz hlate
    timeout_le := by rwa [hrun]
    elapsed_lt := fun x hx => by
      have hundecided := htrail.undecided
      rw [hxs, List.dropLast_concat] at hundecided
      rw [hxs, List.getLast?_concat] at hx
      rw [hrun, ← Option.some.inj hx]
      exact elapsed_lt_of_last hi ht hfrom hundecided }

end Poll

end ClusterControl
