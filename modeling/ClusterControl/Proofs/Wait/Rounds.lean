import ClusterControl.Proofs.Time.Exact
import ClusterControl.Proofs.Wait.Tries

/-!
# Where a wait ends

The checks of a wait are numbered from zero, and check `k` begins in the world that the checks and sleeps
before it leave. A wait ends with the first check that is decisive, on any clock whose time moves at all;
on an exact clock there always is one. It ends there as promised, that is, with what the check raises or
yields or with the limit that is reached, unless the check raises a signal: a wait takes it for its own.
-/

namespace ClusterControl

namespace Poll

variable {τ α : Type} [Time τ]

/-- Time never runs backwards in the check. -/
def Check.Forward (check : Check τ α) : Prop := ∀ w, w.now ≤ (check w).2.now

/-! ## Rounds -/

/-- When a sleep ends that begins at `t`: after one interval, or with the cancellation if that is sooner. -/
def waking (p : Poll τ) (t : τ) : τ :=
  match p.cancel with
  | none => t + p.interval.amount
  | some c => if c ≤ t + p.interval.amount then c else t + p.interval.amount

/-- The world in which check `k` begins, if no check before it is decisive. A sleep changes nothing but
the clock. -/
def before (p : Poll τ) (check : Check τ α) (w : World τ) : Nat → World τ
  | 0 => w
  | k + 1 =>
    let v := (check (p.before check w k)).2
    { v with now := p.waking v.now }

/-- How check `k` ends a wait that began at `started`, and the world that is then left. -/
inductive Ends (p : Poll τ) (check : Check τ α) (started : τ) (w : World τ) (k : Nat) :
    Except (Failure τ) α × World τ → Prop where
  /-- The wait is cancelled when the check would begin, which is then not made. -/
  | unchecked : (p.before check w k).reached p.cancel = true →
      Ends p check started w k
        (.error (.cancelled p.description ((p.before check w k).now - started)), p.before check w k)
  | failed {e : Failure τ} {v : World τ} : (p.before check w k).reached p.cancel = false →
      check (p.before check w k) = (.error (.failure e), v) → Ends p check started w k (.error e, v)
  /-- Neither the deadline nor a cancellation counts that came during the check. -/
  | yielded {a : α} {v : World τ} : (p.before check w k).reached p.cancel = false →
      check (p.before check w k) = (.ok (some a), v) → Ends p check started w k (.ok a, v)
  | cancelled {x : Except (Raised τ) (Option α)} {v : World τ} : (p.before check w k).reached p.cancel = false →
      check (p.before check w k) = (x, v) → Vain x → v.reached p.cancel = true →
      Ends p check started w k (.error (.cancelled p.description (v.now - started)), v)
  | timedOut {x : Except (Raised τ) (Option α)} {v : World τ} : (p.before check w k).reached p.cancel = false →
      check (p.before check w k) = (x, v) → Vain x → v.reached p.cancel = false →
      p.timeout.amount ≤ v.now - started →
      Ends p check started w k (.error (.timedOut p.description p.timeout (v.now - started)), v)
  /-- The work of the check was given up. Then the limits do not matter, but for which of them is named. -/
  | exhausted {v : World τ} : (p.before check w k).reached p.cancel = false →
      check (p.before check w k) = (.error .exhausted, v) →
      Ends p check started w k (.error (p.ending started v), v)

/-- Check `k` is the first one that ends a wait begun in `w`. -/
def FirstEnd (p : Poll τ) (check : Check τ α) (w : World τ) (k : Nat) : Prop :=
  (∃ r, p.Ends check w.now w k r) ∧ ∀ j < k, ∀ r, ¬ p.Ends check w.now w j r

/-- How check `k` is promised to end a wait that began at `started`: whatever the check raises comes out of the
wait as it is, and only a check that yields nothing leaves it to the limits. -/
inductive Promises (p : Poll τ) (check : Check τ α) (started : τ) (w : World τ) (k : Nat) :
    Except (Raised τ) α × World τ → Prop where
  | unchecked : (p.before check w k).reached p.cancel = true →
      Promises p check started w k
        (.error (.failure (.cancelled p.description ((p.before check w k).now - started))), p.before check w k)
  | raised {e : Raised τ} {v : World τ} : (p.before check w k).reached p.cancel = false →
      check (p.before check w k) = (.error e, v) → Promises p check started w k (.error e, v)
  | yielded {a : α} {v : World τ} : (p.before check w k).reached p.cancel = false →
      check (p.before check w k) = (.ok (some a), v) → Promises p check started w k (.ok a, v)
  | cancelled {v : World τ} : (p.before check w k).reached p.cancel = false →
      check (p.before check w k) = (.ok none, v) → v.reached p.cancel = true →
      Promises p check started w k (.error (.failure (.cancelled p.description (v.now - started))), v)
  | timedOut {v : World τ} : (p.before check w k).reached p.cancel = false →
      check (p.before check w k) = (.ok none, v) → v.reached p.cancel = false →
      p.timeout.amount ≤ v.now - started →
      Promises p check started w k
        (.error (.failure (.timedOut p.description p.timeout (v.now - started))), v)

/-- Check `k` is the first one that is promised to end a wait begun in `w`, and so is how. -/
def FirstPromise (p : Poll τ) (check : Check τ α) (w : World τ) (k : Nat)
    (r : Except (Raised τ) α × World τ) : Prop :=
  p.Promises check w.now w k r ∧ ∀ j < k, ∀ r, ¬ p.Promises check w.now w j r

/-- Check `k` is made and raises a signal. -/
def Signals (p : Poll τ) (check : Check τ α) (w : World τ) (k : Nat) : Prop :=
  (p.before check w k).reached p.cancel = false ∧
    ((check (p.before check w k)).1 = .error .again ∨ (check (p.before check w k)).1 = .error .exhausted)

variable {p : Poll τ} {check : Check τ α} {started : τ} {w : World τ}

theorem before_succ (p : Poll τ) (check : Check τ α) (w : World τ) (k : Nat) :
    p.before check w (k + 1) = p.before check (p.before check w 1) k := by
  induction k with
  | zero => rfl
  | succ k ih => rw [before, ih]; rfl

theorem Ends.congr {v : World τ} {j k : Nat} {r : Except (Failure τ) α × World τ}
    (hb : p.before check w j = p.before check v k) (h : p.Ends check started w j r) :
    p.Ends check started v k r := by
  cases h with
  | unchecked hc => rw [hb] at hc ⊢; exact .unchecked hc
  | failed hc he => rw [hb] at hc he; exact .failed hc he
  | yielded hc ha => rw [hb] at hc ha; exact .yielded hc ha
  | cancelled hc hr hx hv => rw [hb] at hc hr; exact .cancelled hc hr hx hv
  | timedOut hc hr hx hv ht => rw [hb] at hc hr; exact .timedOut hc hr hx hv ht
  | exhausted hc he => rw [hb] at hc he; exact .exhausted hc he

theorem ends_succ {k : Nat} {r : Except (Failure τ) α × World τ} :
    p.Ends check started w (k + 1) r ↔ p.Ends check started (p.before check w 1) k r :=
  ⟨.congr (before_succ p check w k), .congr (before_succ p check w k).symm⟩

theorem pause_eq_waking {v : World τ} (hv : v.reached p.cancel = false) :
    v.pause p.interval.amount p.cancel = { v with now := p.waking v.now } := by
  cases hc : p.cancel with
  | none => simp [World.pause, World.advance, waking, hc]
  | some c =>
      simp only [hc, World.reached, decide_eq_false_iff_not] at hv
      simp only [World.pause, if_neg hv, waking, hc]
      split <;> rfl

/-! ## The loop follows the rounds -/

theorem ends_of_decisive {k : Nat} {o : Except (Failure τ) α} {v : World τ}
    (hc : (p.before check w k).reached p.cancel = false) (hr : check (p.before check w k) = (decisive o, v)) :
    p.Ends check started w k (o, v) := by
  cases o with
  | error e => exact .failed hc hr
  | ok a => exact .yielded hc hr

theorem ends_of_spends {k : Nat} {x : Except (Raised τ) (Option α)} {v : World τ}
    (hc : (p.before check w k).reached p.cancel = false) (hr : check (p.before check w k) = (x, v))
    (hx : p.Spends started x v) : p.Ends check started w k (.error (p.ending started v), v) := by
  rcases hx with ⟨hvain, ho⟩ | rfl
  · cases hv : v.reached p.cancel with
    | true =>
        rw [ending_of_reached hv]
        exact .cancelled hc hr hvain hv
    | false =>
        rw [isOver_of_unreached hv, decide_eq_true_eq] at ho
        rw [ending_of_unreached hv]
        exact .timedOut hc hr hvain hv ho
  · exact .exhausted hc hr

/-- A check that is not decisive: it was made, came to nothing, and left neither deadline nor cancellation
behind. -/
theorem undecided_of_not_ends {k : Nat} (h : ∀ r, ¬ p.Ends check started w k r) :
    (p.before check w k).reached p.cancel = false ∧
      ∃ x v, check (p.before check w k) = (x, v) ∧ Vain x ∧ p.isOver started v = false := by
  have hc : (p.before check w k).reached p.cancel = false :=
    Bool.eq_false_iff.2 fun hc => h _ (.unchecked hc)
  rcases hr : check (p.before check w k) with ⟨x, v⟩
  rcases p.decisive_or started x v with ⟨o, rfl⟩ | hspent | ⟨hvain, ho⟩
  · exact absurd (ends_of_decisive hc hr) (h _)
  · exact absurd (ends_of_spends hc hr hspent) (h _)
  · exact ⟨hc, x, v, rfl, hvain, ho⟩

/-- One round of the loop: its check is decisive, or the loop goes on with the next round. -/
theorem loop_succ (p : Poll τ) (check : Check τ α) (started : τ) (w : World τ) (left : Nat) :
    p.Ends check started w 0 (p.loop check started (left + 1) w) ∨
      (∃ x v, w.reached p.cancel = false ∧ check w = (x, v) ∧ Vain x ∧ p.isOver started v = false) ∧
        p.loop check started (left + 1) w = p.loop check started left (p.before check w 1) := by
  cases hc : w.reached p.cancel with
  | true =>
      rw [(loop_reached hc check started (left + 1)).1, ending_of_reached hc]
      exact .inl (.unchecked hc)
  | false =>
      rcases hr : check w with ⟨x, v⟩
      rcases p.decisive_or started x v with ⟨o, rfl⟩ | hspent | ⟨hvain, ho⟩
      · rw [(loop_decided hc hr started left).1]
        exact .inl (ends_of_decisive hc hr)
      · rw [(loop_spent hc hr hspent left).1]
        exact .inl (ends_of_spends hc hr hspent)
      · have hnext : p.before check w 1 = v.pause p.interval.amount p.cancel := by
          rw [pause_eq_waking (Bool.or_eq_false_iff.1 ho).2]
          simp only [before, hr]
        rw [(loop_later hc hr hvain ho left).1, hnext]
        exact .inr ⟨⟨x, v, rfl, rfl, hvain, ho⟩, rfl⟩

/-- A check that ends the wait ends the loop with it, however many checks it may still make. -/
theorem Ends.loop_eq {k : Nat} {r : Except (Failure τ) α × World τ} (h : p.Ends check started w k r) (left : Nat) :
    p.loop check started (left + 1) (p.before check w k) = r := by
  cases h with
  | unchecked hc => rw [(loop_reached hc check started (left + 1)).1, ending_of_reached hc]
  | @failed e v hc hr => exact (loop_decided (o := .error e) hc hr started left).1
  | @yielded a v hc hr => exact (loop_decided (o := .ok a) hc hr started left).1
  | cancelled hc hr hx hv =>
      rw [(loop_spent hc hr (.inl ⟨hx, Bool.or_eq_true_iff.2 (.inr hv)⟩) left).1, ending_of_reached hv]
  | timedOut hc hr hx hv ht =>
      rw [(loop_spent hc hr (.inl ⟨hx, Bool.or_eq_true_iff.2 (.inl (decide_eq_true ht))⟩) left).1,
        ending_of_unreached hv]
  | exhausted hc hr => exact (loop_spent hc hr (.inr rfl) left).1

theorem Ends.unique {k : Nat} {r r' : Except (Failure τ) α × World τ} (h : p.Ends check started w k r)
    (h' : p.Ends check started w k r') : r = r' :=
  (h.loop_eq 0).symm.trans (h'.loop_eq 0)

/-- What a wait leaves open goes on. -/
theorem not_ends_of_later {k : Nat} {x : Except (Raised τ) (Option α)} {v : World τ}
    (hc : (p.before check w k).reached p.cancel = false) (hr : check (p.before check w k) = (x, v))
    (hx : Vain x) (ho : p.isOver started v = false) (r : Except (Failure τ) α × World τ) :
    ¬ p.Ends check started w k r := by
  obtain ⟨hlate, hv⟩ := Bool.or_eq_false_iff.1 ho
  intro hends
  cases hends with
  | unchecked hc' => rw [hc] at hc'; cases hc'
  | failed _ hr' =>
      obtain rfl : x = _ := congrArg Prod.fst (hr.symm.trans hr')
      rcases hx with h | h <;> cases h
  | yielded _ hr' =>
      obtain rfl : x = _ := congrArg Prod.fst (hr.symm.trans hr')
      rcases hx with h | h <;> cases h
  | cancelled _ hr' _ hv' =>
      obtain rfl : v = _ := congrArg Prod.snd (hr.symm.trans hr')
      rw [hv] at hv'
      cases hv'
  | timedOut _ hr' _ _ ht =>
      obtain rfl : v = _ := congrArg Prod.snd (hr.symm.trans hr')
      exact of_decide_eq_false hlate ht
  | exhausted _ hr' =>
      obtain rfl : x = _ := congrArg Prod.fst (hr.symm.trans hr')
      rcases hx with h | h <;> cases h

theorem loop_ends_or_none (p : Poll τ) (check : Check τ α) (started : τ) (left : Nat)
    (w : World τ) :
    (∃ k < left, p.Ends check started w k (p.loop check started left w) ∧
      ∀ j < k, ∀ r, ¬ p.Ends check started w j r) ∨
      ∀ k < left, ∀ r, ¬ p.Ends check started w k r := by
  -- By `ends_succ` the rounds after the first are those of a wait that begins with the second, so the
  -- induction is on the checks that are left, for every world at once.
  induction left generalizing w with
  | zero => exact .inr fun k hk => absurd hk (Nat.not_lt_zero k)
  | succ left ih =>
      rcases loop_succ p check started w left with h | ⟨⟨x, v, hc, hr, hvain, ho⟩, hloop⟩
      · exact .inl ⟨0, Nat.succ_pos left, h, fun j hj => absurd hj (Nat.not_lt_zero j)⟩
      · have hno : ∀ r, ¬ p.Ends check started w 0 r := not_ends_of_later hc hr hvain ho
        rcases ih (p.before check w 1) with ⟨k, hk, hends, hfirst⟩ | hnone
        · refine .inl ⟨k + 1, Nat.succ_lt_succ hk, ?_, ?_⟩
          · rw [hloop]
            exact ends_succ.2 hends
          · intro j hj r
            cases j with
            | zero => exact hno r
            | succ j => exact fun h => hfirst j (Nat.lt_of_succ_lt_succ hj) r (ends_succ.1 h)
        · right
          intro k hk r
          cases k with
          | zero => exact hno r
          | succ k => exact fun h => hnone k (Nat.lt_of_succ_lt_succ hk) r (ends_succ.1 h)

/-! ## On an exact clock some check is decisive -/

section Exact

variable [Time.Exact τ]

/-- While no check is decisive, every round takes one interval at least, up to a cancellation. -/
theorem times_le_before (hf : check.Forward) (k : Nat)
    (hno : ∀ j < k, ∀ r, ¬ p.Ends check started w j r) :
    (p.before check w k).reached p.cancel = true ∨
      w.now + Time.times p.interval.amount k ≤ (p.before check w k).now := by
  induction k with
  | zero =>
      right
      simp only [Time.times, before, Time.Exact.add_zero]
      exact Time.Exact.le_refl _
  | succ k ih =>
      obtain ⟨hc, x, v, hr, _, _⟩ := undecided_of_not_ends (hno k (Nat.lt_succ_self k))
      have hnow : w.now + Time.times p.interval.amount k ≤ v.now := by
        rcases ih fun j hj => hno j (Nat.lt_succ_of_lt hj) with h | h
        · rw [hc] at h; cases h
        · have hv := hf (p.before check w k)
          rw [hr] at hv
          exact Time.Exact.le_trans h hv
      have hsleep : w.now + Time.times p.interval.amount (k + 1) ≤ v.now + p.interval.amount := by
        rw [Time.times, ← Time.Exact.add_assoc, Time.Exact.add_le_add_iff_right]
        exact hnow
      simp only [before, hr, waking]
      cases hcancel : p.cancel with
      | none => exact .inr hsleep
      | some c =>
          by_cases hcut : c ≤ v.now + p.interval.amount
          · left
            simp only [World.reached, if_pos hcut, decide_eq_true_eq]
            exact Time.Exact.le_refl c
          · right
            simp only [if_neg hcut]
            exact hsleep

theorem exists_ends (hi : 0 < p.interval.amount) (ht : 0 ≤ p.timeout.amount) (hf : check.Forward) :
    ∃ k < p.checks, ∃ r, p.Ends check w.now w k r := by
  by_contra hnone
  simp only [not_exists, not_and] at hnone
  -- So many sleeps alone fill the timeout, and the check after them ends too late.
  let n := Time.strides p.interval.amount p.timeout.amount
  have hn : n < p.checks := by simp only [n, checks]; omega
  have hno : ∀ j < n, ∀ r, ¬ p.Ends check w.now w j r :=
    fun j hj r => hnone j (Nat.lt_trans hj hn) r
  obtain ⟨hc, x, v, hr, _, ho⟩ := undecided_of_not_ends (hnone n hn)
  have hnow : w.now + Time.times p.interval.amount n ≤ v.now := by
    have hv := hf (p.before check w n)
    rw [hr] at hv
    rcases times_le_before hf n hno with h | h
    · rw [hc] at h; cases h
    · exact Time.Exact.le_trans h hv
  have hdue : p.timeout.amount ≤ v.now - w.now := by
    have hfill : p.timeout.amount ≤ Time.times p.interval.amount n := Time.Exact.le_times_strides hi ht
    refine Time.Exact.le_trans hfill (Time.Exact.le_sub_iff.2 ?_)
    rw [Time.Exact.add_comm]
    exact hnow
  exact of_decide_eq_false (Bool.or_eq_false_iff.1 ho).1 hdue

end Exact

/-! ## What is promised -/

/-- Where a wait ends, its end is promised. -/
theorem exists_promises_of_ends {k : Nat} {r : Except (Failure τ) α × World τ}
    (h : p.Ends check started w k r) : ∃ r', p.Promises check started w k r' := by
  cases h with
  | unchecked hc => exact ⟨_, .unchecked hc⟩
  | failed hc hr => exact ⟨_, .raised hc hr⟩
  | yielded hc hr => exact ⟨_, .yielded hc hr⟩
  | cancelled hc hr hx hv =>
      rcases hx with rfl | rfl
      · exact ⟨_, .cancelled hc hr hv⟩
      · exact ⟨_, .raised hc hr⟩
  | timedOut hc hr hx hv ht =>
      rcases hx with rfl | rfl
      · exact ⟨_, .timedOut hc hr hv ht⟩
      · exact ⟨_, .raised hc hr⟩
  | exhausted hc hr => exact ⟨_, .raised hc hr⟩

/-- A promise is an end unless the check raises a signal. -/
theorem ends_of_promises {k : Nat} {r : Except (Raised τ) α × World τ}
    (h : p.Promises check started w k r) (hs : ¬ p.Signals check w k) :
    ∃ o, r.1 = o.mapError .failure ∧ p.Ends check started w k (o, r.2) := by
  cases h with
  | unchecked hc => exact ⟨_, rfl, .unchecked hc⟩
  | @raised e v hc hr =>
      have hsignal (h : e = .again ∨ e = .exhausted) : p.Signals check w k := by
        refine ⟨hc, ?_⟩
        rw [hr]
        exact h.imp (congrArg _) (congrArg _)
      cases e with
      | failure e => exact ⟨.error e, rfl, .failed hc hr⟩
      | again => exact absurd (hsignal (.inl rfl)) hs
      | exhausted => exact absurd (hsignal (.inr rfl)) hs
  | yielded hc hr => exact ⟨.ok _, rfl, .yielded hc hr⟩
  | cancelled hc hr hv => exact ⟨_, rfl, .cancelled hc hr (.inl rfl) hv⟩
  | timedOut hc hr hv ht => exact ⟨_, rfl, .timedOut hc hr (.inl rfl) hv ht⟩

/-- A signal is promised to come out of the wait, as whatever else the check raises. -/
theorem Promises.raised_of_signals {k : Nat} {r : Except (Raised τ) α × World τ}
    (h : p.Promises check started w k r) (hs : p.Signals check w k) :
    r.1 = .error .again ∨ r.1 = .error .exhausted := by
  obtain ⟨hc, hs⟩ := hs
  cases h with
  | unchecked hc' => rw [hc] at hc'; cases hc'
  | raised _ hr =>
      rw [hr] at hs
      exact hs.imp (fun h => by cases h; rfl) fun h => by cases h; rfl
  | yielded _ hr => rw [hr] at hs; rcases hs with h | h <;> cases h
  | cancelled _ hr => rw [hr] at hs; rcases hs with h | h <;> cases h
  | timedOut _ hr => rw [hr] at hs; rcases hs with h | h <;> cases h

/-! ## Waits -/

theorem wait_eq_loop (hi : ¬ p.interval.amount ≤ 0) (ht : ¬ p.timeout.amount < 0)
    (hr : p.timeout.inRange = true ∧ p.interval.inRange = true) :
    p.wait check w = p.loop check w.now p.checks w := by
  simp [wait, obstacle?, argumentProblem, hi, ht, hr]

theorem exists_first {P : Nat → Prop} {n : Nat} (h : P n) : ∃ k ≤ n, P k ∧ ∀ j < k, ¬ P j := by
  classical
  exact ⟨Nat.find ⟨n, h⟩, Nat.find_min' _ h, Nat.find_spec _, fun j hj => Nat.find_min _ hj⟩

omit [Time τ] in
/-- No signal comes out of an operation. -/
theorem mapError_failure_ne (o : Except (Failure τ) α) :
    o.mapError Raised.failure ≠ .error .again ∧ o.mapError Raised.failure ≠ .error .exhausted := by
  cases o <;> exact ⟨nofun, nofun⟩

/-- The wait ends as it is promised to. -/
def Keeps (p : Poll τ) (check : Check τ α) (w : World τ) (r : Except (Raised τ) α × World τ) : Prop :=
  (p.wait check w).1.mapError .failure = r.1 ∧ (p.wait check w).2 = r.2

/-- The wait ends as the first check that ends it says. -/
theorem FirstEnd.ends_wait {k : Nat} (h : p.FirstEnd check w k) (hk : k < p.checks)
    (hrun : p.wait check w = p.loop check w.now p.checks w) : p.Ends check w.now w k (p.wait check w) := by
  obtain ⟨⟨r, hends⟩, hbefore⟩ := h
  rw [hrun]
  rcases loop_ends_or_none p check w.now p.checks w with ⟨j, _, hends', hbefore'⟩ | hnone
  · rcases Nat.lt_trichotomy k j with hlt | rfl | hlt
    · exact absurd hends (hbefore' k hlt r)
    · exact hends'
    · exact absurd hends' (hbefore j hlt _)
  · exact absurd hends (hnone k hk r)

/-- Where a wait is first promised to end, the promise is kept just if the check raises no signal. -/
theorem FirstPromise.keeps_iff {k : Nat} {r : Except (Raised τ) α × World τ} (h : p.FirstPromise check w k r)
    (hk : k < p.checks) (hrun : p.wait check w = p.loop check w.now p.checks w) :
    p.Keeps check w r ↔ ¬ p.Signals check w k := by
  obtain ⟨hpromise, hbefore⟩ := h
  constructor
  · intro hkeeps hs
    obtain ⟨hkept, _⟩ := hkeeps
    obtain ⟨hagain, hexhausted⟩ := mapError_failure_ne (p.wait check w).1
    rcases hpromise.raised_of_signals hs with h | h
    · exact hagain (hkept.trans h)
    · exact hexhausted (hkept.trans h)
  · intro hs
    obtain ⟨o, ho, hends⟩ := ends_of_promises hpromise hs
    have hno : ∀ j < k, ∀ r, ¬ p.Ends check w.now w j r := fun j hj r hends =>
      (exists_promises_of_ends hends).elim (hbefore j hj)
    have hfirst : p.FirstEnd check w k := ⟨⟨_, hends⟩, hno⟩
    have hkept : p.wait check w = (o, r.2) := (hfirst.ends_wait hk hrun).unique hends
    rw [Keeps, hkept, ho]
    exact ⟨rfl, rfl⟩

/-- A wait whose limits are beyond the clock's numbers overflows before its first check. Any other ends with the
first decisive check, as that check says. Where it is first promised to end, it ends as promised just if the check
raises no signal. This holds on every clock for the checks that a wait makes at most; on an exact clock, and with
checks in which time does not run backwards, one of them is decisive. -/
theorem wait_ends_at_first (p : Poll τ) (check : Check τ α) (w : World τ)
    (hi : ¬ p.interval.amount ≤ 0) (ht : ¬ p.timeout.amount < 0) :
    (¬ (p.timeout.inRange = true ∧ p.interval.inRange = true) → p.wait check w = (.error .overflow, w)) ∧
      (p.timeout.inRange = true ∧ p.interval.inRange = true →
        (∀ k < p.checks, p.FirstEnd check w k → p.Ends check w.now w k (p.wait check w)) ∧
        (∀ k < p.checks, ∀ r, p.FirstPromise check w k r →
          (p.Keeps check w r ↔ ¬ p.Signals check w k)) ∧
        (Time.Exact τ → check.Forward →
          (∃ k < p.checks, p.FirstEnd check w k ∧ p.Ends check w.now w k (p.wait check w)) ∧
            ∃ k < p.checks, ∃ r, p.FirstPromise check w k r)) := by
  refine ⟨fun hr => by simp [wait, obstacle?, argumentProblem, hi, ht, hr], fun hr => ?_⟩
  have hrun : p.wait check w = p.loop check w.now p.checks w := wait_eq_loop hi ht hr
  have hfirst : ∀ k < p.checks, p.FirstEnd check w k → p.Ends check w.now w k (p.wait check w) :=
    fun k hk hfirst => hfirst.ends_wait hk hrun
  have hkeeps : ∀ k < p.checks, ∀ r, p.FirstPromise check w k r →
      (p.Keeps check w r ↔ ¬ p.Signals check w k) :=
    fun k hk r hfirst => hfirst.keeps_iff hk hrun
  refine ⟨hfirst, hkeeps, fun _ hf => ?_⟩
  have hi' : 0 < p.interval.amount := Time.Exact.lt_iff_not_ge.2 hi
  have ht' : 0 ≤ p.timeout.amount :=
    Classical.not_not.1 fun h => ht (Time.Exact.lt_iff_not_ge.2 h)
  obtain ⟨n, hn, r, hr⟩ := exists_ends (w := w) hi' ht' hf
  obtain ⟨k, hk, hend, hno⟩ := exists_first (P := fun k => ∃ r, p.Ends check w.now w k r) ⟨r, hr⟩
  obtain ⟨j, hj, hpromise, hnone⟩ :=
    exists_first (P := fun k => ∃ r, p.Promises check w.now w k r) (exists_promises_of_ends hr)
  have hfirstEnd : p.FirstEnd check w k := ⟨hend, fun i hi r h => hno i hi ⟨r, h⟩⟩
  refine ⟨⟨k, Nat.lt_of_le_of_lt hk hn, hfirstEnd, hfirst k (Nat.lt_of_le_of_lt hk hn) hfirstEnd⟩, ?_⟩
  obtain ⟨r, hpromise⟩ := hpromise
  exact ⟨j, Nat.lt_of_le_of_lt hj hn, r, hpromise, fun i hi r h => hnone i hi ⟨r, h⟩⟩

/-- A wait for what never comes, cancelled while it sleeps. -/
theorem wait_ends_at_first_in_vain :
    let p : Poll Rat := ⟨"nothing", .real 1, .real 2, some (3 / 2)⟩
    let check : Check Rat Unit := .ofOp (pure none)
    let w := World.initial [] []
    (¬ p.interval.amount ≤ 0 ∧ ¬ p.timeout.amount < 0) ∧
      ∃ k, p.FirstEnd check w k ∧ p.Ends check w.now w k (p.wait check w) := by
  intro p check w
  have hi : ¬ p.interval.amount ≤ 0 := by decide
  have ht : ¬ p.timeout.amount < 0 := by decide
  obtain ⟨_, hrun⟩ := wait_ends_at_first p check w hi ht
  obtain ⟨_, _, hsome⟩ := hrun ⟨rfl, rfl⟩
  obtain ⟨⟨k, _, hends⟩, _⟩ := hsome inferInstance fun v => Time.Exact.le_refl v.now
  exact ⟨⟨hi, ht⟩, k, hends⟩

/-- Work that is given up at the first check, with time left: the wait reports that its own time has run out. Work
that wants to be done again is done again, and the wait returns. -/
theorem signals_do_not_come_out :
    let p : Poll Rat := ⟨"nothing", .real 1, .real 300, none⟩
    let w := World.initial [] []
    let givenUp : Check Rat Unit := fun v => (.error .exhausted, v)
    let unready : Check Rat Unit := fun v => (if v.now = 0 then .error .again else .ok (some ()), v)
    (p.FirstPromise givenUp w 0 (.error .exhausted, w) ∧
        p.wait givenUp w = (.error (.timedOut "nothing" (.real 300) 0), w)) ∧
      p.FirstPromise unready w 0 (.error .again, w) ∧ p.wait unready w = (.ok (), w.advance 1) := by
  intro p w givenUp unready
  have hfirst (check : Check Rat Unit) : ∀ j < 0, ∀ r, ¬ p.Promises check w.now w j r :=
    fun j hj => absurd hj (Nat.not_lt_zero j)
  have hwait (check : Check Rat Unit) : p.wait check w = p.loop check w.now p.checks w :=
    wait_eq_loop (by decide) (by decide) ⟨rfl, rfl⟩
  refine ⟨⟨⟨.raised rfl rfl, hfirst _⟩, ?_⟩, ⟨.raised rfl rfl, hfirst _⟩, ?_⟩
  · have hgivenUp : givenUp w = (.error .exhausted, w) := rfl
    have helapsed : w.now - w.now = 0 := by decide +kernel
    rw [hwait, checks, (loop_spent rfl hgivenUp (.inr rfl) _).1, ending_of_unreached rfl, helapsed]
  · have hagain : unready w = (.error .again, w) := rfl
    have hopen : p.isOver w.now w = false := by decide +kernel
    have hlater : ¬ (w.advance 1).now = 0 := by decide +kernel
    have hdone : unready (w.advance 1) = (decisive (.ok ()), w.advance 1) :=
      congrArg (·, w.advance 1) (if_neg hlater)
    rw [hwait, checks, (loop_later rfl hagain (.inr rfl) hopen _).1]
    exact (loop_decided rfl hdone w.now _).1

end Poll

end ClusterControl
