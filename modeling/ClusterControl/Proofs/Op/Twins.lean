import ClusterControl.Wait.Poll

/-!
# Two runs side by side

Two operations are twins under a relation between worlds if they end alike: begun in related worlds, they
have the same outcome and leave related worlds. Twins are made of twins, and polls of twins are twins where
the clocks agree.
-/

namespace ClusterControl

variable {τ α β : Type} {R : World τ → World τ → Prop}

namespace Op

def Twins (R : World τ → World τ → Prop) (x y : Op τ α) : Prop :=
  ∀ w v, R w v → (x w).1 = (y v).1 ∧ R (x w).2 (y v).2

theorem twins_ofExcept (o : Except (Failure τ) α) : Twins R (ofExcept o) (ofExcept o) :=
  fun _ _ h => ⟨rfl, h⟩

theorem twins_pure (a : α) : Twins R (pure a) (pure a) := twins_ofExcept (.ok a)

theorem twins_fail (e : Failure τ) : Twins R (fail e : Op τ α) (fail e) := twins_ofExcept (.error e)

theorem twins_update {f : World τ → World τ} (hf : ∀ w v, R w v → R (f w) (f v)) :
    Twins R (update f) (update f) :=
  fun w v h => ⟨rfl, hf w v h⟩

theorem Twins.bind {x y : Op τ α} {f g : α → Op τ β} (hx : Twins R x y) (hf : ∀ a, Twins R (f a) (g a)) :
    Twins R (x >>= f) (y >>= g) := by
  intro w v h
  obtain ⟨ho, hr⟩ := hx w v h
  rw [bind_run, bind_run]
  rcases hw : x w with ⟨o, w'⟩
  rcases hv : y v with ⟨o', v'⟩
  rw [hw, hv] at ho hr
  obtain rfl : o = o' := ho
  cases o with
  | error e => exact ⟨rfl, hr⟩
  | ok a => exact hf a w' v' hr

theorem Twins.onFailure {x y : Op τ α} {handle handle' : Failure τ → Op τ α} (hx : Twins R x y)
    (hh : ∀ e, Twins R (handle e) (handle' e)) : Twins R (x.onFailure handle) (y.onFailure handle') := by
  intro w v h
  obtain ⟨ho, hr⟩ := hx w v h
  rw [Op.onFailure, Op.onFailure]
  rcases hw : x w with ⟨o, w'⟩
  rcases hv : y v with ⟨o', v'⟩
  rw [hw, hv] at ho hr
  obtain rfl : o = o' := ho
  cases o with
  | error e => exact hh e w' v' hr
  | ok a => exact ⟨rfl, hr⟩

theorem Twins.attempt {x y : Op τ α} (hx : Twins R x y) : Twins R x.attempt y.attempt := by
  intro w v h
  obtain ⟨ho, hr⟩ := hx w v h
  exact ⟨congrArg Except.ok ho, hr⟩

end Op

/-! ## Polls -/

variable [Time τ]

/-- Related worlds show the same time, and stay related as time passes. -/
structure World.Clocked (R : World τ → World τ → Prop) : Prop where
  now_eq : ∀ w v, R w v → w.now = v.now
  waiting : ∀ w v, R w v → ∀ t, R { w with now := t } { v with now := t }

namespace World.Clocked

variable (hR : World.Clocked R)

include hR

theorem reached_eq {w v : World τ} (h : R w v) (t : Option τ) : w.reached t = v.reached t := by
  cases t with
  | none => rfl
  | some t => exact congrArg (fun now => decide (t ≤ now)) (hR.now_eq w v h)

theorem pause {w v : World τ} (h : R w v) (d : τ) (cancel : Option τ) :
    R (w.pause d cancel) (v.pause d cancel) := by
  have hnow := hR.now_eq w v h
  unfold World.pause World.advance
  cases cancel with
  | none =>
      simp only [hnow]
      exact hR.waiting w v h _
  | some t =>
      simp only [hnow]
      split
      · exact h
      · split
        · exact hR.waiting w v h _
        · exact hR.waiting w v h _

end World.Clocked

namespace Poll

variable {check check' : Op τ (Option α)}

theorem isOver_eq (hR : World.Clocked R) (p : Poll τ) (started : τ) {w v : World τ} (h : R w v) :
    p.isOver started w = p.isOver started v := by
  rw [isOver, isOver, hR.reached_eq h, hR.now_eq w v h]

theorem ending_eq (hR : World.Clocked R) (p : Poll τ) (started : τ) {w v : World τ} (h : R w v) :
    p.ending started w = p.ending started v := by
  rw [ending, ending, hR.reached_eq h, hR.now_eq w v h]

theorem twins_loop (hR : World.Clocked R) (h : Op.Twins R check check') (p : Poll τ) (started : τ)
    (left : Nat) : Op.Twins R (p.loop (.ofOp check) started left) (p.loop (.ofOp check') started left) := by
  -- The clocks agree before every check, so both loops stop at the same one.
  induction left with
  | zero =>
      intro w v hwv
      rw [loop, loop, ending_eq hR p started hwv]
      exact ⟨rfl, hwv⟩
  | succ left ih =>
      intro w v hwv
      rw [loop_ofOp, loop_ofOp, hR.reached_eq hwv, hR.now_eq w v hwv]
      by_cases hc : v.reached p.cancel = true
      · rw [if_pos hc, if_pos hc]
        exact ⟨rfl, hwv⟩
      · rw [if_neg hc, if_neg hc]
        obtain ⟨ho, hr⟩ := h w v hwv
        rcases hw : check w with ⟨o, w'⟩
        rcases hv : check' v with ⟨o', v'⟩
        rw [hw, hv] at ho hr
        obtain rfl : o = o' := ho
        have hr' : R w' v' := hr
        rcases o with e | _ | a
        · exact ⟨rfl, hr'⟩
        · simp only [isOver_eq hR p started hr', ending_eq hR p started hr']
          by_cases hover : p.isOver started v' = true
          · rw [if_pos hover, if_pos hover]
            exact ⟨rfl, hr'⟩
          · rw [if_neg hover, if_neg hover]
            exact ih _ _ (hR.pause hr' p.interval.amount p.cancel)
        · exact ⟨rfl, hr'⟩

theorem twins_run (hR : World.Clocked R) (h : Op.Twins R check check') (p : Poll τ) :
    Op.Twins R (p.run check) (p.run check') := by
  unfold run wait
  cases p.obstacle? with
  | some e => exact Op.twins_fail e
  | none =>
      intro w v hwv
      have hloop := twins_loop hR h p v.now p.checks w v hwv
      show (p.loop (.ofOp check) w.now p.checks w).1 = _ ∧ R (p.loop (.ofOp check) w.now p.checks w).2 _
      rw [hR.now_eq w v hwv]
      exact hloop

end Poll

end ClusterControl
