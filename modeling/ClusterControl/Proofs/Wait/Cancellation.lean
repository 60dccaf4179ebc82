import ClusterControl.Proofs.Op.Trace
import ClusterControl.Proofs.Wait.SingleExchange
import ClusterControl.Proofs.Wait.Phases

/-!
# Waits obey their cancellation

From the instant at which it is cancelled a wait asks nothing more, and it outlasts that instant only by the answer
to a call that began before. Whether it was cancelled or ran out of time is what the clock shows when it ends.
-/

namespace ClusterControl

variable {τ α β : Type} [Time τ]

/-! ## The ends of calls -/

namespace Script

/-- The script that is left after some calls. -/
def after (s : Script τ) (xs : List (Exchange τ)) : Script τ :=
  xs.foldl (fun s x => (s.answer x.request).2) s

/-- When the calls ended, each as long after its start as the answer to it took. -/
def ends (s : Script τ) : List (Exchange τ) → List τ
  | [] => []
  | x :: xs => (x.start + (s.answer x.request).1.cost) :: (s.answer x.request).2.ends xs

theorem after_append (s : Script τ) (xs ys : List (Exchange τ)) :
    s.after (xs ++ ys) = (s.after xs).after ys :=
  List.foldl_append

theorem ends_append (s : Script τ) (xs ys : List (Exchange τ)) :
    s.ends (xs ++ ys) = s.ends xs ++ (s.after xs).ends ys := by
  induction xs generalizing s with
  | nil => rfl
  | cons x xs ih => exact congrArg (_ :: ·) (ih _)

end Script

/-! ## Worlds -/

/-- Between the worlds some calls were made, all of them before the instant. The clock still shows the earlier
time, or the instant, or a time before it, or the end of a call. -/
structure World.Heeds (t : τ) (w : World τ) (xs : List (Exchange τ)) (v : World τ) : Prop where
  exchanges : v.exchanges = w.exchanges ++ xs
  script : v.script = w.script.after xs
  starts : ∀ x ∈ xs, ¬ t ≤ x.start
  now : v.now = w.now ∨ v.now = t ∨ ¬ t ≤ v.now ∨ v.now ∈ w.script.ends xs

namespace World

variable {t : τ} {w v u : World τ} {xs ys : List (Exchange τ)}

theorem Noted.heeds (h : w.Noted v) (t : τ) : w.Heeds t [] v where
  exchanges := h.exchanges.trans (List.append_nil _).symm
  script := by
    obtain ⟨_, rfl, _⟩ := h
    rfl
  starts := List.forall_mem_nil _
  now := .inl h.now_eq

theorem Heeds.trans (h : w.Heeds t xs v) (h' : v.Heeds t ys u) : w.Heeds t (xs ++ ys) u where
  exchanges := by rw [h'.exchanges, h.exchanges, List.append_assoc]
  script := by rw [h'.script, h.script, Script.after_append]
  starts x hx := (List.mem_append.1 hx).elim (h.starts x) (h'.starts x)
  now := by
    rw [Script.ends_append, ← h.script]
    rcases h'.now with hu | hu | hu | hu
    · rw [hu]
      exact h.now.imp_right (Or.imp_right (Or.imp_right (List.mem_append_left _)))
    · exact .inr (.inl hu)
    · exact .inr (.inr (.inl hu))
    · exact .inr (.inr (.inr (List.mem_append_right _ hu)))

theorem Heeds.noted (h : w.Heeds t xs v) (h' : v.Noted u) : w.Heeds t xs u := by
  have hall := h.trans (h'.heeds t)
  rwa [List.append_nil] at hall

theorem heeds_exchange (hw : ¬ t ≤ w.now) (r : Request) :
    w.Heeds t [⟨r, w.now, (w.exchange r).1⟩] (w.exchange r).2 where
  exchanges := exchanges_exchange w r
  script := rfl
  starts := List.forall_mem_singleton.2 hw
  now := .inr (.inr (.inr List.mem_cons_self))

theorem heeds_pause (t : τ) (w : World τ) (d : τ) : w.Heeds t [] (w.pause d (some t)) where
  exchanges := (exchanges_pause w d (some t)).trans (List.append_nil _).symm
  script := by
    unfold pause advance
    split
    · rfl
    · split
      · rfl
      · split <;> rfl
  starts := List.forall_mem_nil _
  now := by
    simp only [pause, advance]
    split
    · exact .inl rfl
    · split
      · exact .inr (.inl rfl)
      · rename_i hlate
        exact .inr (.inr (.inl hlate))

end World

/-! ## Failures -/

/-- What the failure tells about a wait is true when the clock shows `now`: that it timed out only if it is not
cancelled, and that it was cancelled only if it is. Failures that the cluster answered with are not meant. -/
def Failure.TrueAt (t : τ) (xs : List (Exchange τ)) (now : τ) (f : Failure τ) : Prop :=
  ∀ e, f.Voices e → (∀ x ∈ xs, ∀ g, x.outcome = .error g → ¬ g.Voices e) →
    (e.isTimeout = true → ¬ t ≤ now) ∧ (e.isCancellation = true → t ≤ now)

namespace Failure

variable {t now : τ} {f : Failure τ} {xs : List (Exchange τ)}

theorem TrueAt.prepend (h : f.TrueAt t xs now) (ys : List (Exchange τ)) : f.TrueAt t (ys ++ xs) now :=
  fun e he hown => h e he fun x hx => hown x (List.mem_append_right ys hx)

theorem trueAt_of_not_inVain (h : ¬ f.InVain) : f.TrueAt t xs now :=
  fun e he _ => ⟨fun ht => absurd ⟨e, he, .inl ht⟩ h, fun hc => absurd ⟨e, he, .inr hc⟩ h⟩

theorem trueAt_of_answer {x : Exchange τ} (hx : x ∈ xs) (h : x.outcome = .error f) : f.TrueAt t xs now :=
  fun _ he hown => absurd he (hown x hx f h)

theorem trueAt_ending {p : Poll τ} (hp : p.cancel = some t) (started : τ) (w : World τ) :
    (p.ending started w).TrueAt t xs w.now := by
  rw [Poll.ending, hp]
  by_cases hw : t ≤ w.now
  · simp only [World.reached, hw, decide_true, if_true]
    rintro e (rfl | he) _
    · exact ⟨(fun h => by cases h), fun _ => hw⟩
    · cases he
  · simp only [World.reached, hw, decide_false, Bool.false_eq_true, if_false]
    rintro e (rfl | he) _
    · exact ⟨fun _ => hw, fun h => by cases h⟩
    · cases he

end Failure

/-! ## Operations -/

namespace Op

def ObeysIn (t : τ) (x : Op τ α) (w : World τ) : Prop :=
  ∃ xs, w.Heeds t xs (x w).2 ∧ ∀ f, (x w).1 = .error f → f.TrueAt t xs (x w).2.now

def Obeys (t : τ) (x : Op τ α) : Prop := ∀ w, x.ObeysIn t w

variable {t : τ}

theorem Quick.obeys {x : Op τ α} (h : x.Quick) : x.Obeys t := fun w =>
  ⟨[], (h w).1.heeds t, fun f hf => Failure.trueAt_of_not_inVain ((h w).2 f hf)⟩

/-- A look that begins in time. -/
theorem Glances.obeysIn {x : Op τ α} (h : x.Glances) {w : World τ} (hw : ¬ t ≤ w.now) : x.ObeysIn t w := by
  rcases h w with ⟨hnoted, hfail⟩ | ⟨r, hnoted, hfail⟩
  · exact ⟨[], hnoted.heeds t, fun f hf => Failure.trueAt_of_not_inVain (hfail f hf)⟩
  · refine ⟨_, (World.heeds_exchange hw r).noted hnoted, fun f hf => ?_⟩
    rcases hfail f hf with hanswer | hother
    · exact Failure.trueAt_of_answer (List.mem_singleton_self _) hanswer
    · exact Failure.trueAt_of_not_inVain hother

theorem ObeysIn.bind {x : Op τ α} {f : α → Op τ β} {w : World τ} (hx : x.ObeysIn t w)
    (hf : ∀ a, (x w).1 = .ok a → (f a).ObeysIn t (x w).2) : (x >>= f).ObeysIn t w := by
  obtain ⟨xs, hheeds, htrue⟩ := hx
  rw [ObeysIn, bind_run]
  rcases hr : x w with ⟨e | a, v⟩
  · rw [hr] at hheeds htrue
    exact ⟨xs, hheeds, fun g hg => Except.error.inj hg ▸ htrue e rfl⟩
  · rw [hr] at hheeds
    obtain ⟨ys, hheeds', htrue'⟩ := hf a (by rw [hr])
    rw [hr] at hheeds' htrue'
    exact ⟨xs ++ ys, hheeds.trans hheeds', fun g hg => (htrue' g hg).prepend xs⟩

theorem Obeys.bind {x : Op τ α} {f : α → Op τ β} (hx : x.Obeys t) (hf : ∀ a, (f a).Obeys t) :
    (x >>= f).Obeys t :=
  fun w => (hx w).bind fun a _ => hf a (x w).2

/-- A failure may be put into other words, as long as nothing new is said about how a wait ended. -/
theorem Obeys.onFailure {x : Op τ α} {handle : Failure τ → Op τ α} (hx : x.Obeys t)
    (hh : ∀ e v, v.Noted (handle e v).2 ∧ ∀ f, (handle e v).1 = .error f → ∀ e', f.Voices e' →
      e.Voices e' ∨ e'.isTimeout = false ∧ e'.isCancellation = false) : (x.onFailure handle).Obeys t := by
  intro w
  obtain ⟨xs, hheeds, htrue⟩ := hx w
  rw [ObeysIn, Op.onFailure]
  rcases hr : x w with ⟨e | a, v⟩
  · rw [hr] at hheeds htrue
    obtain ⟨hnoted, hsaid⟩ := hh e v
    refine ⟨xs, hheeds.noted hnoted, fun f hf e' he' => ?_⟩
    rw [show (handle e v).2.now = v.now from hnoted.now_eq]
    rcases hsaid f hf e' he' with hsaid | ⟨ht, hc⟩
    · exact htrue e rfl e' hsaid
    · rw [ht, hc]
      exact fun _ => ⟨(fun h => by cases h), fun h => by cases h⟩
  · rw [hr] at hheeds
    exact ⟨xs, hheeds, fun g hg => by cases hg⟩

end Op

open Op

/-! ## Polls -/

namespace Poll

variable {t : τ} {check : Op τ (Option α)}

theorem obeys_loop (h : check.Glances) {p : Poll τ} (hp : p.cancel = some t) (started : τ) (left : Nat) :
    (p.loop (.ofOp check) started left).Obeys t := by
  have hstop (w : World τ) : ∃ xs, w.Heeds t xs w ∧ (p.ending started w).TrueAt t xs w.now :=
    ⟨[], (World.Noted.refl w).heeds t, Failure.trueAt_ending hp started w⟩
  -- A round begins with the look at the cancellation, so what it asks is asked in time; the sleep after it ends at
  -- the instant of the cancellation at the latest.
  induction left with
  | zero =>
      intro w
      obtain ⟨xs, hheeds, htrue⟩ := hstop w
      exact ⟨xs, hheeds, fun f hf => Except.error.inj hf ▸ htrue⟩
  | succ left ih =>
      intro w
      rw [ObeysIn, loop_ofOp]
      by_cases hw : t ≤ w.now
      · have hreached : w.reached p.cancel = true := by rw [hp]; exact decide_eq_true hw
        obtain ⟨xs, hheeds, htrue⟩ := hstop w
        rw [ending, if_pos hreached] at htrue
        rw [if_pos hreached]
        exact ⟨xs, hheeds, fun f hf => Except.error.inj hf ▸ htrue⟩
      · have hreached : ¬ w.reached p.cancel = true := by rw [hp]; exact fun h => hw (of_decide_eq_true h)
        rw [if_neg hreached]
        obtain ⟨xs, hheeds, htrue⟩ := h.obeysIn hw
        rcases hr : check w with ⟨e | _ | a, v⟩
        · rw [hr] at hheeds htrue
          exact ⟨xs, hheeds, fun f hf => Except.error.inj hf ▸ htrue e rfl⟩
        · rw [hr] at hheeds
          simp only
          split
          · exact ⟨xs, hheeds, fun f hf => Except.error.inj hf ▸ Failure.trueAt_ending hp started v⟩
          · have hpause : v.Heeds t [] (v.pause p.interval.amount p.cancel) := by
              rw [hp]
              exact v.heeds_pause t p.interval.amount
            obtain ⟨ys, hheeds', htrue'⟩ := ih (v.pause p.interval.amount p.cancel)
            exact ⟨xs ++ ([] ++ ys), hheeds.trans (hpause.trans hheeds'),
              fun f hf => ((htrue' f hf).prepend []).prepend xs⟩
        · rw [hr] at hheeds
          exact ⟨xs, hheeds, fun f hf => by cases hf⟩

theorem not_inVain_obstacle {p : Poll τ} {e : Failure τ} (h : p.obstacle? = some e) : ¬ e.InVain := by
  unfold obstacle? at h
  split at h
  · rw [← Option.some.inj h]
    exact Failure.not_inVain rfl rfl rfl
  · split at h
    · cases h
    · rw [← Option.some.inj h]
      exact Failure.not_inVain rfl rfl rfl

theorem obeys_run (h : check.Glances) {p : Poll τ} (hp : p.cancel = some t) : (p.run check).Obeys t := by
  unfold run wait
  split
  · rename_i e he
    exact (quick_fail (not_inVain_obstacle he)).obeys
  · exact fun w => obeys_loop h hp w.now p.checks w

end Poll

/-! ## Waits -/

variable {c : Connection} {t : τ}

theorem Condition.Built.obeys_poll {k : Condition τ} (h : k.Built c) (interval timeout : Seconds τ) (t : τ) :
    (k.poll interval timeout (some t)).Obeys t :=
  Poll.obeys_run h.glances rfl

namespace DefinitionWait

theorem obeys_poll (d : DefinitionWait τ) {k : Condition τ} (h : k.Built c) (timeout : Seconds τ) (t : τ) :
    (d.poll k timeout (some t)).Obeys t := by
  refine ((h.obeys_poll d.interval timeout t).bind fun _ => (quick_pure ()).obeys).onFailure fun e v => ?_
  split
  · exact ⟨.refl v, fun f hf e' he' => .inl (Except.error.inj hf ▸ he')⟩
  · refine ⟨.refl v, fun f hf e' he' => ?_⟩
    obtain rfl := Except.error.inj hf
    rcases he' with rfl | he'
    · exact .inr ⟨rfl, rfl⟩
    · exact .inl (.inl (Option.some.inj he'))

theorem obeys_wait (d : DefinitionWait τ) (timeout : Seconds τ) (establishedTimeout : Option (Seconds τ)) (t : τ) :
    (d.wait timeout establishedTimeout (some t)).Obeys t := by
  have hestablished (d : DefinitionWait τ) (timeout : Seconds τ) : (d.established timeout (some t)).Obeys t := by
    unfold established
    cases hk : (Condition.definitionEstablished d.connection d.name : Checked (Condition τ)) with
    | invalid issues => exact (quick_fail (Failure.not_inVain rfl rfl rfl)).obeys
    | valid k => exact d.obeys_poll (.reports .definition ["Established"] _ Value.null d.name hk) timeout t
  rw [wait_eq]
  exact (d.obeys_poll (.definitionExists d.name rfl) timeout t).bind fun _ =>
    (hestablished _ _).bind fun _ => (quick_log _ _).obeys

end DefinitionWait

/-! ## Waits under a sink -/

namespace Sink

omit [Time τ] in
/-- A failure that breaks off a wait says nothing about how the wait ended. -/
theorem Breaks.says_nothing {s : Sink τ} {f : Failure τ} (h : s.Breaks f) {e : Failure τ} (he : f.Voices e) :
    e.isTimeout = false ∧ e.isCancellation = false := by
  cases s with
  | logger => cases h
  | relay refuses =>
      obtain ⟨hinterrupt, _⟩ := h
      cases f with
      | interrupt text =>
          rcases he with rfl | he
          · exact ⟨rfl, rfl⟩
          · cases he
      | _ => cases hinterrupt

theorem quick_report (s : Sink τ) (stage : Stage) (message : String) : (s.report stage message).Quick := by
  intro w
  obtain ⟨v, hv, hrun | ⟨f, hf, hrun⟩⟩ := s.report_cases stage message w
  · rw [hrun]
    exact ⟨hv, fun _ h => by cases h⟩
  · rw [hrun]
    refine ⟨hv, fun g hg => ?_⟩
    rw [← Except.error.inj hg]
    rintro ⟨e, he, h⟩
    rw [(hf.says_nothing he).1, (hf.says_nothing he).2] at h
    rcases h with h | h <;> cases h

theorem obeys_around (s : Sink τ) (message : String) {body : Op τ α} (h : body.Obeys t) :
    (s.around message body).Obeys t := by
  have hbody : (body.orElse fun e => do
      s.report .failure (message ++ " failed: " ++ e.message)
      fail e).Obeys t := by
    refine h.onFailure fun e v => ?_
    split
    · exact ⟨.refl v, fun f hf e' he' => .inl (Except.error.inj hf ▸ he')⟩
    · obtain ⟨u, hu, hrun | ⟨f, hf, hrun⟩⟩ := s.report_cases .failure (message ++ " failed: " ++ e.message) v
      · simp only [bind_run, hrun]
        exact ⟨hu, fun f hf e' he' => .inl (Except.error.inj hf ▸ he')⟩
      · simp only [bind_run, hrun]
        exact ⟨hu, fun g hg e' he' => .inr (hf.says_nothing (Except.error.inj hg ▸ he'))⟩
  exact (s.quick_report .start message).obeys.bind fun _ => hbody.bind fun a =>
    ((s.quick_report .success message).bind fun _ => quick_pure a).obeys

end Sink

theorem obeys_withProgress (sink : Option (Sink τ)) (message : String) {body : Op τ α} (h : body.Obeys t) :
    (withProgress sink message body).Obeys t := by
  cases sink with
  | none => exact h
  | some s => exact s.obeys_around message h

end ClusterControl
