import ClusterControl.Wait.Poll

/-!
# The tries of a wait

A wait keeps nothing of the checks it makes in vain. Here all of its checks are kept, in order. A wait that may make
enough of them goes by rules that know no number of checks.
-/

namespace ClusterControl

variable {τ α : Type}

open Poll (Check)

/-- One check of a wait: the world in which it begins, what it comes to, and the world that it leaves. -/
structure Try (τ α : Type) where
  before : World τ
  outcome : Except (Raised τ) (Option α)
  after : World τ

/-- The check came to nothing: it yields nothing, or its work wants to be done again. -/
def Vain (x : Except (Raised τ) (Option α)) : Prop := x = .ok none ∨ x = .error .again

/-- What a check comes to that decides a wait: it fails, or it yields something. -/
def decisive (o : Except (Failure τ) α) : Except (Raised τ) (Option α) := (o.map some).mapError .failure

variable [Time τ]

/-- The time that the check takes. -/
def Try.cost (x : Try τ α) : τ := x.after.now - x.before.now

namespace Poll

/-- The tries of the loop that may make `left` checks. -/
def triesFrom (p : Poll τ) (check : Check τ α) (started : τ) : (left : Nat) → World τ → List (Try τ α)
  | 0, _ => []
  | left + 1, w =>
    if w.reached p.cancel then []
    else ⟨w, (check w).1, (check w).2⟩ :: match check w with
      | (.ok none, v) | (.error .again, v) =>
        if p.isOver started v then [] else triesFrom p check started left (v.pause p.interval.amount p.cancel)
      | _ => []

/-- The tries of a wait that begins in the world. -/
def tries (p : Poll τ) (check : Check τ α) (w : World τ) : List (Try τ α) :=
  match p.obstacle? with
  | some _ => []
  | none => p.triesFrom check w.now p.checks w

/-- The check uses up the wait: it came to nothing and a limit is reached, or its work was given up. -/
def Spends (p : Poll τ) (started : τ) (x : Except (Raised τ) (Option α)) (v : World τ) : Prop :=
  Vain x ∧ p.isOver started v = true ∨ x = .error .exhausted

variable {p : Poll τ} {check : Check τ α} {started : τ} {w v : World τ} {x : Except (Raised τ) (Option α)}

omit [Time τ] in
theorem decisive_error (e : Failure τ) : decisive (.error e : Except (Failure τ) α) = .error (.failure e) :=
  rfl

omit [Time τ] in
theorem decisive_ok (a : α) : decisive (.ok a : Except (Failure τ) α) = .ok (some a) :=
  rfl

theorem wait_of_none (h : p.obstacle? = none) (check : Check τ α) (w : World τ) :
    p.wait check w = p.loop check w.now p.checks w ∧ p.tries check w = p.triesFrom check w.now p.checks w := by
  simp only [wait, tries, h, and_self]

theorem wait_of_some {e : Failure τ} (h : p.obstacle? = some e) (check : Check τ α) (w : World τ) :
    p.wait check w = (.error e, w) ∧ p.tries check w = ([] : List (Try τ α)) := by
  simp only [wait, tries, h, Op.fail_run, and_self]

theorem arguments_of_none (h : p.obstacle? = none) : ¬ p.interval.amount ≤ 0 ∧ ¬ p.timeout.amount < 0 := by
  unfold obstacle? argumentProblem at h
  by_cases hi : p.interval.amount ≤ 0
  · rw [if_pos hi] at h
    cases h
  · by_cases ht : p.timeout.amount < 0
    · rw [if_neg hi, if_pos ht] at h
      cases h
    · exact ⟨hi, ht⟩

/-! ## One round -/

theorem ending_of_unreached (hc : w.reached p.cancel = false) :
    p.ending started w = .timedOut p.description p.timeout (w.now - started) := by
  rw [ending, hc]
  rfl

theorem ending_of_reached (hc : w.reached p.cancel = true) :
    p.ending started w = .cancelled p.description (w.now - started) := by
  rw [ending, hc]
  rfl

theorem isOver_of_unreached (hc : w.reached p.cancel = false) :
    p.isOver started w = decide (p.timeout.amount ≤ w.now - started) := by
  rw [isOver, hc, Bool.or_false]

theorem loop_reached (hc : w.reached p.cancel = true) (check : Check τ α) (started : τ) (left : Nat) :
    p.loop check started left w = (.error (p.ending started w), w) ∧
      p.triesFrom check started left w = ([] : List (Try τ α)) := by
  cases left with
  | zero => exact ⟨rfl, rfl⟩
  | succ left => simp only [loop, triesFrom, ending, hc, if_true, and_self]

theorem loop_decided {o : Except (Failure τ) α} (hc : w.reached p.cancel = false) (hr : check w = (decisive o, v))
    (started : τ) (left : Nat) :
    p.loop check started (left + 1) w = (o, v) ∧
      p.triesFrom check started (left + 1) w = [⟨w, decisive o, v⟩] := by
  cases o with
  | error e =>
      rw [decisive_error] at hr ⊢
      simp [loop, triesFrom, hc, hr]
  | ok a =>
      rw [decisive_ok] at hr ⊢
      simp [loop, triesFrom, hc, hr]

theorem loop_spent (hc : w.reached p.cancel = false) (hr : check w = (x, v)) (hx : p.Spends started x v)
    (left : Nat) :
    p.loop check started (left + 1) w = (.error (p.ending started v), v) ∧
      p.triesFrom check started (left + 1) w = [⟨w, x, v⟩] := by
  rcases hx with ⟨rfl | rfl, ho⟩ | rfl
  · simp [loop, triesFrom, hc, hr, ho]
  · simp [loop, triesFrom, hc, hr, ho]
  · simp [loop, triesFrom, hc, hr]

theorem loop_later (hc : w.reached p.cancel = false) (hr : check w = (x, v)) (hx : Vain x)
    (ho : p.isOver started v = false) (left : Nat) :
    p.loop check started (left + 1) w = p.loop check started left (v.pause p.interval.amount p.cancel) ∧
      p.triesFrom check started (left + 1) w =
        ⟨w, x, v⟩ :: p.triesFrom check started left (v.pause p.interval.amount p.cancel) := by
  rcases hx with rfl | rfl <;> simp [loop, triesFrom, hc, hr, ho]

/-- What a check comes to decides the wait, uses it up, or leaves it open. -/
theorem decisive_or (p : Poll τ) (started : τ) (x : Except (Raised τ) (Option α)) (v : World τ) :
    (∃ o, x = decisive o) ∨ p.Spends started x v ∨ Vain x ∧ p.isOver started v = false := by
  have hopen (hx : Vain x) : p.Spends started x v ∨ Vain x ∧ p.isOver started v = false := by
    cases ho : p.isOver started v with
    | true => exact .inl (.inl ⟨hx, ho⟩)
    | false => exact .inr ⟨hx, rfl⟩
  match x with
  | .error (.failure e) => exact .inl ⟨.error e, rfl⟩
  | .error .exhausted => exact .inr (.inl (.inr rfl))
  | .error .again => exact .inr (hopen (.inr rfl))
  | .ok (some a) => exact .inl ⟨.ok a, rfl⟩
  | .ok none => exact .inr (hopen (.inl rfl))

/-- A check that is made is the first try, whatever comes after it. -/
theorem prefix_triesFrom (hc : w.reached p.cancel = false) (hr : check w = (x, v)) (started : τ) (left : Nat) :
    [⟨w, x, v⟩] <+: p.triesFrom check started (left + 1) w := by
  simp only [triesFrom, hc, hr, Bool.false_eq_true, if_false]
  exact (List.prefix_cons_inj _).2 List.nil_prefix

theorem before_of_cons {left : Nat} {x : Try τ α} {xs : List (Try τ α)}
    (h : p.triesFrom check started left w = x :: xs) : w.reached p.cancel = false ∧ x.before = w := by
  cases left with
  | zero => cases h
  | succ left =>
      rw [triesFrom] at h
      split at h
      · cases h
      · rename_i hc
        exact ⟨Bool.eq_false_iff.2 hc, (List.cons.inj h).1 ▸ rfl⟩

/-- The rounds of the loop, one by one: it may make no more checks, it is cancelled, its check decides, the check uses
it up, or the wait goes on. -/
theorem loop_induction (p : Poll τ) (check : Check τ α) (started : τ) {motive : Nat → World τ → Prop}
    (exhausted : ∀ w, motive 0 w)
    (cancelled : ∀ left w, w.reached p.cancel = true → motive (left + 1) w)
    (decided : ∀ left w v (o : Except (Failure τ) α), w.reached p.cancel = false → check w = (decisive o, v) →
      motive (left + 1) w)
    (spent : ∀ left w v x, w.reached p.cancel = false → check w = (x, v) → p.Spends started x v →
      motive (left + 1) w)
    (later : ∀ left w v x, w.reached p.cancel = false → check w = (x, v) → Vain x → p.isOver started v = false →
      motive left (v.pause p.interval.amount p.cancel) → motive (left + 1) w)
    (left : Nat) (w : World τ) : motive left w := by
  induction left generalizing w with
  | zero => exact exhausted w
  | succ left ih =>
      cases hc : w.reached p.cancel with
      | true => exact cancelled left w hc
      | false =>
          rcases hr : check w with ⟨x, v⟩
          rcases p.decisive_or started x v with ⟨o, rfl⟩ | hspent | ⟨hvain, ho⟩
          · exact decided left w v o hc hr
          · exact spent left w v x hc hr hspent
          · exact later left w v x hc hr hvain ho (ih _)

theorem check_of_tries {left : Nat} {x : Try τ α} (hx : x ∈ p.triesFrom check started left w) :
    check x.before = (x.outcome, x.after) := by
  induction left, w using p.loop_induction check started with
  | exhausted w => cases hx
  | cancelled left w hc =>
      rw [(loop_reached hc check started (left + 1)).2] at hx
      cases hx
  | decided left w v o hc hr =>
      rw [(loop_decided hc hr started left).2] at hx
      rw [List.mem_singleton.1 hx, hr]
  | spent left w v x hc hr hspent =>
      rw [(loop_spent hc hr hspent left).2] at hx
      rw [List.mem_singleton.1 hx, hr]
  | later left w v x hc hr hvain ho ih =>
      rw [(loop_later hc hr hvain ho left).2] at hx
      rcases List.mem_cons.1 hx with rfl | hx
      · exact hr
      · exact ih hx

/-! ## Rules -/

/-- How a wait goes on that began at `started`: its tries from here, its outcome, and the world that it leaves. -/
inductive Trail (p : Poll τ) (check : Check τ α) (started : τ) :
    World τ → List (Try τ α) → Except (Failure τ) α × World τ → Prop where
  | cancelled {w : World τ} : w.reached p.cancel = true →
      Trail p check started w [] (.error (p.ending started w), w)
  | decided {w v : World τ} {o : Except (Failure τ) α} : w.reached p.cancel = false →
      check w = (decisive o, v) → Trail p check started w [⟨w, decisive o, v⟩] (o, v)
  | spent {w v : World τ} {x : Except (Raised τ) (Option α)} : w.reached p.cancel = false → check w = (x, v) →
      p.Spends started x v → Trail p check started w [⟨w, x, v⟩] (.error (p.ending started v), v)
  | later {w v : World τ} {x : Except (Raised τ) (Option α)} {xs : List (Try τ α)}
      {run : Except (Failure τ) α × World τ} : w.reached p.cancel = false → check w = (x, v) → Vain x →
      p.isOver started v = false → Trail p check started (v.pause p.interval.amount p.cancel) xs run →
      Trail p check started w (⟨w, x, v⟩ :: xs) run

/-- The check came to nothing, and the wait goes on. -/
structure Undecided (p : Poll τ) (started : τ) (x : Try τ α) : Prop where
  vain : Vain x.outcome
  isOver : p.isOver started x.after = false

/-- The loop goes by the rules, or makes all the checks that it may, none of which decides. -/
theorem trail_or_exhausted (p : Poll τ) (check : Check τ α) (started : τ) (left : Nat) (w : World τ) :
    p.Trail check started w (p.triesFrom check started left w) (p.loop check started left w) ∨
      (p.triesFrom check started left w).length = left ∧
        ∀ x ∈ p.triesFrom check started left w, p.Undecided started x := by
  induction left, w using p.loop_induction check started with
  | exhausted w => exact .inr ⟨rfl, List.forall_mem_nil _⟩
  | cancelled left w hc =>
      obtain ⟨hloop, htries⟩ := loop_reached hc check started (left + 1)
      rw [hloop, htries]
      exact .inl (.cancelled hc)
  | decided left w v o hc hr =>
      obtain ⟨hloop, htries⟩ := loop_decided hc hr started left
      rw [hloop, htries]
      exact .inl (.decided hc hr)
  | spent left w v x hc hr hspent =>
      obtain ⟨hloop, htries⟩ := loop_spent hc hr hspent left
      rw [hloop, htries]
      exact .inl (.spent hc hr hspent)
  | later left w v x hc hr hvain ho ih =>
      obtain ⟨hloop, htries⟩ := loop_later hc hr hvain ho left
      rw [hloop, htries]
      rcases ih with htrail | ⟨hlength, hall⟩
      · exact .inl (.later hc hr hvain ho htrail)
      · exact .inr ⟨congrArg Nat.succ hlength, List.forall_mem_cons.2 ⟨⟨hvain, ho⟩, hall⟩⟩

/-- The wait ends by its rules, if it begins at all. -/
def Settles (p : Poll τ) (check : Check τ α) (w : World τ) : Prop :=
  p.obstacle? = none → p.Trail check w.now w (p.tries check w) (p.wait check w)

namespace Trail

variable {xs : List (Try τ α)} {run : Except (Failure τ) α × World τ}

/-- All tries but the last were in vain, and the wait went on after them. -/
theorem undecided (h : p.Trail check started w xs run) : ∀ x ∈ xs.dropLast, p.Undecided started x := by
  induction h with
  | cancelled => exact List.forall_mem_nil _
  | decided => exact List.forall_mem_nil _
  | spent => exact List.forall_mem_nil _
  | @later w v x xs run _ _ hvain ho _ ih =>
      cases xs with
      | nil => exact List.forall_mem_nil _
      | cons y ys =>
          rw [List.dropLast_cons_cons]
          exact List.forall_mem_cons.2 ⟨⟨hvain, ho⟩, ih⟩

/-- A wait that nothing but its limits can end ends with the last try. -/
theorem in_vain (h : p.Trail check started w xs run) (hp : p.cancel = none) (hall : ∀ x ∈ xs, x.outcome = .ok none) :
    ∃ front last, xs = front ++ [last] ∧ p.isOver started last.after = true ∧
      run = (.error (p.ending started last.after), last.after) := by
  induction h with
  | cancelled hc =>
      rw [hp] at hc
      cases hc
  | @decided w v o _ _ =>
      have hnone : decisive o = .ok none := hall _ (List.mem_singleton_self _)
      cases o <;> cases hnone
  | spent _ _ hspent =>
      rcases hspent with ⟨_, ho⟩ | rfl
      · exact ⟨[], _, rfl, ho, rfl⟩
      · have hnone : Except.error Raised.exhausted = Except.ok none := hall _ (List.mem_singleton_self _)
        cases hnone
  | later _ _ _ _ _ ih =>
      obtain ⟨front, last, rfl, ho, hrun⟩ := ih (List.forall_mem_cons.1 hall).2
      exact ⟨_ :: front, last, rfl, ho, hrun⟩

end Trail

end Poll

end ClusterControl
