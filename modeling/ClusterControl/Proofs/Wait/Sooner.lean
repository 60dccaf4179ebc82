import ClusterControl.Proofs.Wait.Tries
import ClusterControl.Proofs.Wait.TwoPhases

/-!
# Waits that end sooner

Two waits with the same limits that read the same object make the same reads up to the first answer that only one of
them takes for the end. So a wait that is content with more stops no later, and of the two the longer one begins as the
shorter one does.
-/

namespace ClusterControl

variable {τ α : Type}

/-! ## Sightings of two sorts -/

namespace Poll

variable [Time τ] {p : Poll τ} {c : Connection} {r : Request} {started : τ} {w v : World τ} {xs : List (Exchange τ)}
  {misses shows misses' shows' : Except (Failure τ) Value → Prop}

theorem Sees.requests (h : p.Sees c r misses shows started w xs v) : ∀ x ∈ xs, x.request = r := by
  induction h with
  | now => exact List.forall_mem_singleton.2 rfl
  | later _ _ _ _ _ _ ih => exact List.forall_mem_cons.2 ⟨rfl, ih⟩

/-- It does not matter how failures would name what is waited for. -/
theorem Sees.rename {name name' : String} {interval timeout : Seconds τ} {cancel : Option τ}
    (h : Sees ⟨name, interval, timeout, cancel⟩ c r misses shows started w xs v) :
    Sees ⟨name', interval, timeout, cancel⟩ c r misses shows started w xs v := by
  induction h with
  | now ho hc ha => exact .now ho hc ha
  | later ho hc ha hc' ht _ ih => exact .later ho hc ha hc' ht ih

theorem Sees.transfer (h : p.Sees c r misses shows started w xs v)
    (hm : ∀ x ∈ xs, misses x.outcome → misses' x.outcome) (hs : ∀ x ∈ xs, shows x.outcome → shows' x.outcome) :
    p.Sees c r misses' shows' started w xs v := by
  induction h with
  | now ho hc ha => exact .now ho hc (hs _ (List.mem_singleton_self _) ha)
  | later ho hc ha hc' ht _ ih =>
      exact .later ho hc (hm _ List.mem_cons_self ha) hc' ht
        (ih (fun x hx => hm x (List.mem_cons_of_mem _ hx)) fun x hx => hs x (List.mem_cons_of_mem _ hx))

/-- A wait that is content with all that another one is content with, and perhaps with more, ends as that one does or
before it. -/
theorem Sees.sooner (h : p.Sees c r misses shows started w xs v) (hm : ∀ o, misses o → misses' o ∨ shows' o)
    (hs : ∀ o, shows o → shows' o) :
    ∃ u ys zs, p.Sees c r misses' shows' started w ys u ∧ xs = ys ++ zs ∧
      (u = v ∨ p.Sees c r misses shows started { u with now := p.waking u.now } zs v) := by
  induction h with
  | now ho hc ha => exact ⟨_, _, [], .now ho hc (hs _ ha), (List.append_nil _).symm, .inl rfl⟩
  | later ho hc ha hc' ht hrest ih =>
      rcases hm _ ha with hmiss | hshow
      · obtain ⟨u, ys, zs, hsees, rfl, hu⟩ := ih
        exact ⟨u, _ :: ys, zs, .later ho hc hmiss hc' ht hsees, rfl, hu⟩
      · exact ⟨_, [_], _, .now ho hc hshow, rfl, .inr hrest⟩

theorem Sees.forwardAt (h : p.Sees c r misses shows started w xs v) {e : Endpoint} (hw : w.script.ForwardAt e) :
    v.script.ForwardAt e := by
  induction h with
  | now => exact fun a ha => hw a (Script.mem_queue_of_answer ha)
  | later _ _ _ _ _ _ ih => exact ih fun a ha => hw a (Script.mem_queue_of_answer ha)

section Exact

variable [Time.Exact τ]

open Time

theorem Sees.le_waking (h : p.Sees c r misses shows started { w with now := p.waking w.now } xs v)
    (hi : 0 ≤ p.interval.amount) : w.now ≤ p.waking w.now := by
  rw [waking_eq h.reached_eq rfl]
  exact Exact.le_add hi

theorem Sees.le_now (h : p.Sees c r misses shows started w xs v) (hi : 0 ≤ p.interval.amount)
    (hw : w.script.ForwardAt r.endpoint) : w.now ≤ v.now := by
  induction h with
  | now => exact hw.le_exchange
  | later _ _ _ _ _ hrest ih =>
      have hnext := ih fun a ha => hw a (Script.mem_queue_of_answer ha)
      exact Exact.le_trans hw.le_exchange (Exact.le_trans (hrest.le_waking hi) hnext)

end Exact

/-! ### Waits of one question -/

variable {α : Type} {check : Op τ (Option α)} {answer : Except (Failure τ) Value → Except (Failure τ) (Option α)}

/-- A wait succeeds exactly if its arguments are in order and it sees what it waits for in the checks that it has. -/
theorem run_eq_ok_iff (h : check.Inquires c r answer) : (∃ a, p.run check w = (.ok a, v)) ↔
    p.obstacle? = none ∧ ∃ xs, xs.length ≤ p.checks ∧
      p.Sees c r (answer · = .ok none) (∃ a, answer · = .ok (some a)) w.now w xs v := by
  cases hp : p.obstacle? with
  | some e => simp [run, (wait_of_some hp (.ofOp check) w).1]
  | none =>
      rw [run, (wait_of_none hp (.ofOp check) w).1]
      constructor
      · rintro ⟨a, hrun⟩
        exact ⟨rfl, sees_of_loop h hrun⟩
      · rintro ⟨_, xs, hlength, hsees⟩
        exact loop_of_sees h hsees hlength

end Poll

/-! ## Conditions of several types -/

theorem fulfils_mono {types types' : List String} (h : types ⊆ types') {c : Value} {b : Bool}
    (hc : fulfils types c = .ok b) : ∃ b', fulfils types' c = .ok b' ∧ (b = true → b' = true) := by
  cases c with
  | obj fields =>
      obtain rfl := Except.ok.inj hc
      refine ⟨_, rfl, fun hb => ?_⟩
      obtain ⟨hstatus, htype⟩ := Bool.and_eq_true_iff.1 hb
      obtain ⟨t, ht, hsame⟩ := List.any_eq_true.1 htype
      exact Bool.and_eq_true_iff.2 ⟨hstatus, List.any_eq_true.2 ⟨t, h ht, hsame⟩⟩
  | _ => cases hc

theorem fulfils_append {types types' : List String} {c : Value}
    (h : ¬ (c.field? "status" = .str "True" ∧ ∃ t ∈ types, c.field? "type" = .str t)) :
    fulfils (types ++ types') c = fulfils types' c := by
  cases c with
  | obj fields =>
      refine congrArg Except.ok (Bool.eq_iff_iff.2 ?_)
      simp only [Bool.and_eq_true, List.any_append, Bool.or_eq_true, List.any_eq_true, Value.same_str_iff]
      constructor
      · rintro ⟨hstatus, hfirst | hsecond⟩
        · exact absurd ⟨hstatus, hfirst⟩ h
        · exact ⟨hstatus, hsecond⟩
      · rintro ⟨hstatus, htype⟩
        exact ⟨hstatus, .inr htype⟩
  | _ => rfl

theorem hasCondition_eq (object : Value) (types : List String) : hasCondition object types =
    ((object.field? "status").field? "conditions").itemsOrNone.bind (·.anyM (fulfils types)) := rfl

theorem hasCondition_mono {types types' : List String} (h : types ⊆ types') {object : Value} {b : Bool}
    (hb : hasCondition object types = .ok b) : ∃ b', hasCondition object types' = .ok b' ∧ (b = true → b' = true) := by
  rw [hasCondition_eq] at hb ⊢
  cases hi : ((object.field? "status").field? "conditions").itemsOrNone with
  | error m => rw [hi] at hb; cases hb
  | ok items =>
      rw [hi] at hb
      exact anyM_mono (fun c _ b hc => fulfils_mono h hc) hb

/-- Types of which the object reports none do not matter. -/
theorem hasCondition_append {types types' : List String} {object : Value} (h : ¬ object.Reports types) :
    hasCondition object (types ++ types') = hasCondition object types' := by
  rw [hasCondition_eq, hasCondition_eq]
  unfold Value.Reports at h
  generalize (object.field? "status").field? "conditions" = conditions at h ⊢
  cases hi : conditions.itemsOrNone with
  | error m => rfl
  | ok items =>
      refine anyM_congr fun c hc => fulfils_append fun hreports => ?_
      cases conditions with
      | list vs =>
          obtain rfl : vs = items := Except.ok.inj ((itemsOrNone_list vs).symm.trans hi)
          exact h ⟨vs, rfl, c, hc, hreports⟩
      | _ =>
          rw [field?_of_itemsOrNone hi (by simp) hc] at hreports
          cases hreports.1

/-! ## Answers to reads -/

namespace Condition

variable {ref : Ref} {types types' : List String} {o : Except (Failure τ) Value}

theorem shown_mono (h : types ⊆ types') {a : Option Value} (ha : shown ref types o = .ok a) :
    ∃ a', shown ref types' o = .ok a' ∧ (a.isSome → a'.isSome) := by
  unfold shown at ha ⊢
  cases hv : present ref o with
  | error e => rw [hv] at ha; cases ha
  | ok v =>
      rw [hv] at ha
      cases hb : hasCondition v types with
      | error m => simp [hb, Except.bind, Except.mapError] at ha
      | ok b =>
          obtain ⟨b', hb', hmore⟩ := hasCondition_mono h hb
          simp only [Except.bind, hb, Except.mapError, Except.ok.injEq] at ha
          subst ha
          refine ⟨if b' then some .null else none, by simp only [Except.bind, hb', Except.mapError], ?_⟩
          cases b with
          | true => rw [hmore rfl]; exact id
          | false => exact fun h => by cases h

theorem shown_append (h : ∀ v, o = .ok v → ¬ v.Reports types) :
    shown ref (types ++ types') o = shown ref types' o := by
  unfold shown
  cases hv : present ref o with
  | error e => rfl
  | ok v => simp only [Except.bind, hasCondition_append (h v (present_eq_ok hv))]

end Condition

end ClusterControl
