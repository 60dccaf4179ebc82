import ClusterControl.Proofs.Time.Linear
import ClusterControl.Proofs.Wait.SingleExchange
import ClusterControl.Proofs.Wait.Success
import ClusterControl.Proofs.Wait.Tries

/-!
# Waits that differ in one limit

A longer timeout changes nothing but what a timeout ends, and a cancellation after the end of a wait nothing at all.
Two runs are compared round by round.
-/

namespace ClusterControl

variable {τ α : Type} [Time τ]

theorem Time.Exact.lt_of_le_of_lt [Time.Exact τ] {a b c : τ} (h : a ≤ b) (h' : b < c) : a < c :=
  lt_iff_not_ge.2 fun hle => lt_iff_not_ge.1 h' (le_trans hle h)

namespace Poll

variable {p : Poll τ} {check : Check τ α} {started : τ} {w : World τ}

/-! ## Longer timeouts -/

section Linear

variable {timeout : Seconds τ}

theorem ending_timeout (hc : w.reached p.cancel = true) :
    ({ p with timeout } : Poll τ).ending started w = p.ending started w := by
  simp only [ending, hc, if_true]

variable [Time.Linear τ]

theorem isOver_timeout (h : p.timeout.amount ≤ timeout.amount) (ho : p.isOver started w = false) :
    ({ p with timeout } : Poll τ).isOver started w = false := by
  obtain ⟨hlate, hc⟩ := Bool.or_eq_false_iff.1 ho
  exact Bool.or_eq_false_iff.2
    ⟨decide_eq_false fun hle => of_decide_eq_false hlate (Time.Linear.le_trans h hle), hc⟩

theorem loop_timeout (h : p.timeout.amount ≤ timeout.amount) {left left' : Nat} (hleft : left ≤ left') :
    let q : Poll τ := { p with timeout }
    ((∀ e, (p.loop check started left w).1 = .error e → e.isTimeout = false) →
        q.loop check started left' w = p.loop check started left w ∧
          q.triesFrom check started left' w = p.triesFrom check started left w) ∧
      p.triesFrom check started left w <+: q.triesFrom check started left' w := by
  intro q
  have hending {v : World τ} (hv : v.reached p.cancel = true) : q.ending started v = p.ending started v :=
    ending_timeout hv
  have hexpired {v : World τ} (hv : v.reached p.cancel = false) {P : Prop}
      (hno : ∀ e, (Except.error (p.ending started v) : Except (Failure τ) α) = .error e → e.isTimeout = false) : P :=
    absurd (hno _ (congrArg _ (ending_of_unreached hv))) Bool.noConfusion
  -- The rounds agree until the shorter timeout ends the wait, and then only the tries after that are new.
  induction left, w using p.loop_induction check started generalizing left' with
  | exhausted w =>
      refine ⟨fun hno => ?_, List.nil_prefix⟩
      cases hc : w.reached p.cancel with
      | true =>
          obtain ⟨hloop, htries⟩ := loop_reached (p := q) hc check started left'
          rw [hloop, htries, hending hc]
          exact ⟨rfl, rfl⟩
      | false => exact hexpired hc hno
  | cancelled left w hc =>
      obtain ⟨hloop, htries⟩ := loop_reached hc check started (left + 1)
      obtain ⟨hloop', htries'⟩ := loop_reached (p := q) hc check started left'
      rw [hloop, htries, hloop', htries', hending hc]
      exact ⟨fun _ => ⟨rfl, rfl⟩, List.prefix_rfl⟩
  | decided left w v o hc hr =>
      obtain ⟨left', rfl⟩ := Nat.exists_eq_add_of_le' (Nat.le_trans (Nat.le_add_left 1 left) hleft)
      obtain ⟨hloop, htries⟩ := loop_decided hc hr started left
      obtain ⟨hloop', htries'⟩ := loop_decided (p := q) hc hr started left'
      rw [hloop, htries, hloop', htries']
      exact ⟨fun _ => ⟨rfl, rfl⟩, List.prefix_rfl⟩
  | spent left w v x hc hr hspent =>
      obtain ⟨left', rfl⟩ := Nat.exists_eq_add_of_le' (Nat.le_trans (Nat.le_add_left 1 left) hleft)
      obtain ⟨hloop, htries⟩ := loop_spent hc hr hspent left
      rw [hloop, htries]
      cases hv : v.reached p.cancel with
      | true =>
          have hspent' : q.Spends started x v :=
            hspent.imp_left fun hvain => ⟨hvain.1, Bool.or_eq_true_iff.2 (.inr hv)⟩
          obtain ⟨hloop', htries'⟩ := loop_spent (p := q) hc hr hspent' left'
          rw [hloop', htries', hending hv]
          exact ⟨fun _ => ⟨rfl, rfl⟩, List.prefix_rfl⟩
      | false => exact ⟨hexpired hv, prefix_triesFrom (p := q) hc hr started left'⟩
  | later left w v x hc hr hvain ho ih =>
      obtain ⟨left', rfl⟩ := Nat.exists_eq_add_of_le' (Nat.le_trans (Nat.le_add_left 1 left) hleft)
      obtain ⟨hloop, htries⟩ := loop_later hc hr hvain ho left
      obtain ⟨hloop', htries'⟩ := loop_later (p := q) hc hr hvain (isOver_timeout h ho) left'
      obtain ⟨hsame, hprefix⟩ := ih (Nat.le_of_succ_le_succ hleft)
      rw [hloop, htries, hloop', htries']
      refine ⟨fun hno => ?_, (List.prefix_cons_inj _).2 hprefix⟩
      obtain ⟨hrun, hxs⟩ := hsame hno
      exact ⟨hrun, congrArg _ hxs⟩

theorem obstacle_timeout (ht : 0 ≤ p.timeout.amount) (h : p.timeout.amount ≤ timeout.amount) :
    ({ p with timeout } : Poll τ).obstacle? = p.obstacle? := by
  have hnonneg {t : τ} (h0 : 0 ≤ t) : ¬ t < 0 := fun hlt => Time.Linear.lt_iff_not_ge.1 hlt h0
  simp only [obstacle?, argumentProblem, Time.Linear.inRange_seconds, if_neg (hnonneg ht),
    if_neg (hnonneg (Time.Linear.le_trans ht h))]

theorem checks_timeout (hp : p.obstacle? = none) (h : p.timeout.amount ≤ timeout.amount) :
    p.checks ≤ ({ p with timeout } : Poll τ).checks :=
  Nat.add_le_add_right (Time.Linear.strides_mono (Time.Linear.lt_iff_not_ge.2 (arguments_of_none hp).1) h) 2

/-- Raising the timeout changes nothing but a timeout. A wait that ends in any other way ends with the longer timeout
just so, after the same tries, and one that runs out of time makes the same tries first. -/
theorem longer_timeout (p : Poll τ) (check : Check τ α) (w : World τ) (timeout : Seconds τ)
    (ht : 0 ≤ p.timeout.amount) (h : p.timeout.amount ≤ timeout.amount) :
    let q : Poll τ := { p with timeout }
    ((∀ e, (p.wait check w).1 = .error e → e.isTimeout = false) →
        q.wait check w = p.wait check w ∧ q.tries check w = p.tries check w) ∧
      p.tries check w <+: q.tries check w := by
  intro q
  cases hp : p.obstacle? with
  | some e =>
      obtain ⟨hrun, htries⟩ := wait_of_some hp check w
      obtain ⟨hrun', htries'⟩ := wait_of_some (p := q) ((obstacle_timeout ht h).trans hp) check w
      rw [hrun, htries, hrun', htries']
      exact ⟨fun _ => ⟨rfl, rfl⟩, List.prefix_rfl⟩
  | none =>
      obtain ⟨hrun, htries⟩ := wait_of_none hp check w
      obtain ⟨hrun', htries'⟩ := wait_of_none (p := q) ((obstacle_timeout ht h).trans hp) check w
      rw [hrun, htries, hrun', htries']
      exact loop_timeout h (checks_timeout hp h)

/-- A wait for what never comes, cancelled while it sleeps, before either of two timeouts. -/
theorem longer_timeout_of_cancelled :
    let p : Poll Rat := ⟨"nothing", .real 1, .real 2, some (3 / 2)⟩
    let check : Check Rat Unit := .ofOp (pure none)
    let w := World.initial [] []
    let q : Poll Rat := { p with timeout := .real 5 }
    (0 ≤ p.timeout.amount ∧ p.timeout.amount ≤ q.timeout.amount) ∧ (p.tries check w).length = 2 ∧
      q.wait check w = p.wait check w ∧ q.tries check w = p.tries check w := by
  intro p check w q
  have ht : 0 ≤ p.timeout.amount := by decide
  have h : p.timeout.amount ≤ q.timeout.amount := by decide
  obtain ⟨hsame, _⟩ := longer_timeout p check w (.real 5) ht h
  have hcancelled : (match (p.wait check w).1 with
      | .error e => e.isTimeout
      | .ok _ => true) = false := by decide +kernel
  exact ⟨⟨ht, h⟩, by decide +kernel, hsame fun e he => by rwa [he] at hcancelled⟩

end Linear

/-! ## Late cancellations -/

section Exact

variable [Time.Exact τ]

/-- No time is lost in a wait whose tries lose none. -/
theorem le_loop (hp : p.cancel = none) (hi : 0 ≤ p.interval.amount) {left : Nat}
    (hf : ∀ x ∈ p.triesFrom check started left w, x.before.now ≤ x.after.now) :
    w.now ≤ (p.loop check started left w).2.now := by
  induction left, w using p.loop_induction check started with
  | exhausted w => exact Time.Exact.le_refl _
  | cancelled left w hc =>
      rw [(loop_reached hc check started (left + 1)).1]
      exact Time.Exact.le_refl _
  | decided left w v o hc hr =>
      obtain ⟨hloop, htries⟩ := loop_decided hc hr started left
      rw [htries] at hf
      rw [hloop]
      exact hf _ (List.mem_singleton_self _)
  | spent left w v x hc hr hspent =>
      obtain ⟨hloop, htries⟩ := loop_spent hc hr hspent left
      rw [htries] at hf
      rw [hloop]
      exact hf _ (List.mem_singleton_self _)
  | later left w v x hc hr hvain ho ih =>
      obtain ⟨hloop, htries⟩ := loop_later hc hr hvain ho left
      rw [htries] at hf
      obtain ⟨hfirst, hrest⟩ := List.forall_mem_cons.1 hf
      have hpause : v.now ≤ (v.pause p.interval.amount p.cancel).now := by
        rw [hp]
        exact Time.Exact.le_add hi
      rw [hloop]
      exact Time.Exact.le_trans hfirst (Time.Exact.le_trans hpause (ih hrest))

theorem pause_early {t d : τ} {v : World τ} (hi : 0 ≤ d) (h : (v.pause d none).now < t) :
    v.pause d (some t) = v.pause d none := by
  have hcut : ¬ t ≤ v.now + d := Time.Exact.lt_iff_not_ge.1 h
  have hnow : ¬ t ≤ v.now := fun hle => hcut (Time.Exact.le_trans hle (Time.Exact.le_add hi))
  simp only [World.pause, if_neg hnow, if_neg hcut]

theorem loop_cancel (hp : p.cancel = none) (hi : 0 ≤ p.interval.amount) {t : τ} {left : Nat}
    (hf : ∀ x ∈ p.triesFrom check started left w, x.before.now ≤ x.after.now)
    (hlate : (p.loop check started left w).2.now < t) :
    let q : Poll τ := { p with cancel := some t }
    q.loop check started left w = p.loop check started left w ∧
      q.triesFrom check started left w = p.triesFrom check started left w := by
  intro q
  have hearly {u v : World τ} (h : u.now ≤ v.now) (hv : v.now < t) : u.reached q.cancel = false :=
    decide_eq_false fun hle => Time.Exact.lt_iff_not_ge.1 hv (Time.Exact.le_trans hle h)
  have hnever (v : World τ) : v.reached p.cancel = false := by rw [hp]; rfl
  have hending {v : World τ} (hv : v.now < t) : q.ending started v = p.ending started v :=
    (ending_of_unreached (hearly (Time.Exact.le_refl _) hv)).trans (ending_of_unreached (hnever v)).symm
  have hover {v : World τ} (hv : v.now < t) : q.isOver started v = p.isOver started v :=
    (isOver_of_unreached (hearly (Time.Exact.le_refl _) hv)).trans (isOver_of_unreached (hnever v)).symm
  -- What is left of the wait ends before the instant, and so does every round of it.
  induction left, w using p.loop_induction check started with
  | exhausted w =>
      have hw : w.now < t := hlate
      exact ⟨by rw [loop, loop, hending hw], rfl⟩
  | cancelled left w hc =>
      rw [hnever] at hc
      cases hc
  | decided left w v o hc hr =>
      have hw : w.reached q.cancel = false := hearly (le_loop hp hi hf) hlate
      obtain ⟨hloop, htries⟩ := loop_decided hc hr started left
      obtain ⟨hloop', htries'⟩ := loop_decided (p := q) hw hr started left
      rw [hloop, htries, hloop', htries']
      exact ⟨rfl, rfl⟩
  | spent left w v x hc hr hspent =>
      have hw : w.reached q.cancel = false := hearly (le_loop hp hi hf) hlate
      obtain ⟨hloop, htries⟩ := loop_spent hc hr hspent left
      rw [hloop] at hlate
      have hv : v.now < t := hlate
      have hspent' : q.Spends started x v := hspent.imp_left fun hvain => ⟨hvain.1, (hover hv).trans hvain.2⟩
      obtain ⟨hloop', htries'⟩ := loop_spent (p := q) hw hr hspent' left
      rw [hloop, htries, hloop', htries', hending hv]
      exact ⟨rfl, rfl⟩
  | later left w v x hc hr hvain ho ih =>
      have hw : w.reached q.cancel = false := hearly (le_loop hp hi hf) hlate
      obtain ⟨hloop, htries⟩ := loop_later hc hr hvain ho left
      rw [hloop] at hlate
      rw [htries] at hf
      have hrest := (List.forall_mem_cons.1 hf).2
      have hnext : (v.pause p.interval.amount p.cancel).now < t :=
        Time.Exact.lt_of_le_of_lt (le_loop hp hi hrest) hlate
      rw [hp] at hnext
      have hv : v.now < t := Time.Exact.lt_of_le_of_lt (Time.Exact.le_add hi) hnext
      obtain ⟨hloop', htries'⟩ := loop_later (p := q) hw hr hvain ((hover hv).trans ho) left
      obtain ⟨hrun, hxs⟩ := ih hrest hlate
      have hpause : v.pause q.interval.amount q.cancel = v.pause p.interval.amount p.cancel := by
        rw [hp]
        exact pause_early hi hnext
      rw [hloop, htries, hloop', htries', hpause, hrun, hxs]
      exact ⟨rfl, rfl⟩

/-- A cancellation after the end of a wait is invisible: the wait that it could have cancelled has the same outcome,
the same tries, and leaves the same world. -/
theorem late_cancellation (p : Poll τ) (check : Check τ α) (w : World τ) (t : τ) (hp : p.cancel = none)
    (hf : ∀ x ∈ p.tries check w, x.before.now ≤ x.after.now) (hlate : (p.wait check w).2.now < t) :
    let q : Poll τ := { p with cancel := some t }
    q.wait check w = p.wait check w ∧ q.tries check w = p.tries check w := by
  intro q
  have hobstacle : q.obstacle? = p.obstacle? := rfl
  cases ho : p.obstacle? with
  | some e =>
      obtain ⟨hrun, htries⟩ := wait_of_some ho check w
      obtain ⟨hrun', htries'⟩ := wait_of_some (hobstacle.trans ho) check w
      rw [hrun, htries, hrun', htries']
      exact ⟨rfl, rfl⟩
  | none =>
      obtain ⟨hrun, htries⟩ := wait_of_none ho check w
      obtain ⟨hrun', htries'⟩ := wait_of_none (hobstacle.trans ho) check w
      have hi : 0 ≤ p.interval.amount :=
        (Time.Exact.le_total _ _).resolve_right (arguments_of_none ho).1
      rw [hrun] at hlate
      rw [htries] at hf
      rw [hrun, htries, hrun', htries']
      exact loop_cancel hp hi hf hlate

/-- A wait for what never comes, whose checks take their time, and a cancellation shortly after its end. -/
theorem late_cancellation_of_slow :
    let p : Poll Rat := ⟨"nothing", .real 1, .real 2, none⟩
    let check : Check Rat Unit := .ofOp do Op.advance (.real (1 / 2)); pure none
    let w := World.initial [] []
    let q : Poll Rat := { p with cancel := some (9 / 4) }
    (p.cancel = none ∧ (∀ x ∈ p.tries check w, x.before.now ≤ x.after.now) ∧ (p.wait check w).2.now < 9 / 4) ∧
      (p.tries check w).length = 2 ∧ q.wait check w = p.wait check w ∧ q.tries check w = p.tries check w := by
  intro p check w q
  have hf : ∀ x ∈ p.tries check w, x.before.now ≤ x.after.now := by decide +kernel
  have hlate : (p.wait check w).2.now < 9 / 4 := by decide +kernel
  exact ⟨⟨rfl, hf, hlate⟩, by decide +kernel, late_cancellation p check w (9 / 4) rfl hf hlate⟩

end Exact

end Poll

end ClusterControl
