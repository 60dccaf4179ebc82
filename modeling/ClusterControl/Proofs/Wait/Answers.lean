import ClusterControl.Proofs.Wait.SingleExchange
import ClusterControl.Proofs.Wait.Success

/-!
# What a wait makes of an answer

A wait asks one question again and again. The answer that decides is the last one, and nothing but notes comes
after it. After any other answer the wait goes on, unless it is cancelled or out of time.
-/

namespace ClusterControl

open Op

variable {τ α β : Type} [Time τ]

/-! ## Operations that ask one question and take notes -/

namespace Op

/-- The operation decides at once, and takes notes at most. -/
def Remarks (o : Except (Failure τ) α) (x : Op τ α) : Prop := ∀ w, (x w).1 = o ∧ w.Noted (x w).2

/-- One exchange, whose answer decides the outcome; notes may be taken of it. -/
def Consults (c : Connection) (r : Request) (answer : Except (Failure τ) Value → Except (Failure τ) α)
    (x : Op τ α) : Prop :=
  ∀ w, c.serves r w = true → (x w).1 = answer (w.exchange r).1 ∧ (w.exchange r).2.Noted (x w).2

variable {c : Connection} {r : Request} {answer : Except (Failure τ) Value → Except (Failure τ) α}

omit [Time τ] in
theorem remarks_ofExcept (o : Except (Failure τ) α) : (ofExcept o).Remarks o := fun w => ⟨rfl, .refl w⟩

omit [Time τ] in
theorem remarks_log (level : Level) (message : String) : (log level message : Op τ Unit).Remarks (.ok ()) :=
  fun w => ⟨rfl, w.noted_record fun _ h => by cases h⟩

omit [Time τ] in
theorem Remarks.bind {x : Op τ α} {f : α → Op τ β} {o : Except (Failure τ) α}
    {next : α → Except (Failure τ) β} (hx : x.Remarks o) (hf : ∀ a, (f a).Remarks (next a)) :
    (x >>= f).Remarks (o.bind next) := by
  intro w
  obtain ⟨ho, hv⟩ := hx w
  rw [bind_run]
  rcases hr : x w with ⟨e | a, v⟩
  · rw [hr] at ho hv
    exact ⟨by simp only [← ho]; rfl, hv⟩
  · rw [hr] at ho hv
    obtain ⟨hnext, hu⟩ := hf a v
    exact ⟨by simp only [← ho]; exact hnext, hv.trans hu⟩

theorem Inquires.consults {x : Op τ α} (h : x.Inquires c r answer) : x.Consults c r answer := by
  intro w hw
  rw [h w, if_pos hw]
  exact ⟨rfl, .refl _⟩

theorem Consults.bind {x : Op τ α} {f : α → Op τ β} {g : α → Except (Failure τ) β}
    (hx : x.Consults c r answer) (hf : ∀ a, (f a).Remarks (g a)) :
    (x >>= f).Consults c r fun o => (answer o).bind g := by
  intro w hw
  obtain ⟨ho, hv⟩ := hx w hw
  rw [bind_run]
  rcases hr : x w with ⟨e | a, v⟩
  · rw [hr] at ho hv
    exact ⟨by simp only [← ho]; rfl, hv⟩
  · rw [hr] at ho hv
    obtain ⟨hnext, hu⟩ := hf a v
    exact ⟨by simp only [← ho]; exact hnext, hv.trans hu⟩

theorem Consults.onRejection {x : Op τ α} {handle : Rejection → Op τ α}
    {next : Rejection → Except (Failure τ) α} (hx : x.Consults c r answer) (hh : ∀ e, (handle e).Remarks (next e)) :
    (x.onRejection handle).Consults c r fun o => recovered (rejectedOr next) (answer o) := by
  intro w hw
  obtain ⟨ho, hv⟩ := hx w hw
  rw [Op.onRejection, Op.onFailure]
  rcases hr : x w with ⟨e | a, v⟩
  · rw [hr] at ho hv
    simp only [← ho]
    cases e with
    | rejected e => exact ⟨(hh e v).1, hv.trans (hh e v).2⟩
    | _ => exact ⟨rfl, hv⟩
  · rw [hr] at ho hv
    exact ⟨by simp only [← ho]; rfl, hv⟩

end Op

/-! ## The course of a wait -/

/-- Nothing but notes came after the answer to this request, which left the world `v`. -/
def Exchange.Final (x : Exchange τ) (v : World τ) : Prop :=
  ∃ u : World τ, u.now = x.start ∧ (u.exchange x.request).1 = x.outcome ∧ (u.exchange x.request).2.Noted v

theorem Exchange.Final.noted {x : Exchange τ} {v u : World τ} (h : x.Final v) (hu : v.Noted u) : x.Final u := by
  obtain ⟨t, hnow, houtcome, hv⟩ := h
  exact ⟨t, hnow, houtcome, hv.trans hu⟩

namespace Poll

section Exact

variable [Time.Exact τ] {w v : World τ}

theorem reached_mono {t : Option τ} (h : w.now ≤ v.now) (hw : w.reached t = true) : v.reached t = true := by
  cases t with
  | none => exact hw
  | some t => exact decide_eq_true (Time.Exact.le_trans (of_decide_eq_true hw) h)

/-- A sleep takes a whole interval, unless the wait is cancelled in it. -/
theorem waking_cases (p : Poll τ) (v : World τ) :
    ({ v with now := p.waking v.now } : World τ).reached p.cancel = true ∨
      p.waking v.now = v.now + p.interval.amount := by
  unfold waking
  cases hc : p.cancel with
  | none => exact .inr rfl
  | some t =>
      by_cases hcut : t ≤ v.now + p.interval.amount
      · simp only [if_pos hcut]
        exact .inl (decide_eq_true (Time.Exact.le_refl t))
      · exact .inr (if_neg hcut)

end Exact

/-- How a wait goes that asks `r` through an open connection and has so many checks left: its exchanges, its
outcome and the world that it leaves. -/
inductive Course (p : Poll τ) (r : Request) (answer : Except (Failure τ) Value → Except (Failure τ) (Option α))
    (started : τ) : Nat → World τ → List (Exchange τ) → Except (Failure τ) α × World τ → Prop where
  /-- The wait is cancelled before it asks, or may not ask again. -/
  | unasked {left : Nat} {w : World τ} : left = 0 ∨ w.reached p.cancel = true →
      Course p r answer started left w [] (.error (p.ending started w), w)
  | decided {left : Nat} {w v : World τ} {o : Except (Failure τ) α} : answer (w.exchange r).1 = o.map some →
      (w.exchange r).2.Noted v →
      Course p r answer started (left + 1) w [⟨r, w.now, (w.exchange r).1⟩] (o, v)
  | spent {left : Nat} {w v : World τ} : answer (w.exchange r).1 = .ok none → (w.exchange r).2.Noted v →
      p.isOver started v = true →
      Course p r answer started (left + 1) w [⟨r, w.now, (w.exchange r).1⟩] (.error (p.ending started v), v)
  | later {left : Nat} {w v : World τ} {xs : List (Exchange τ)} {run : Except (Failure τ) α × World τ} :
      answer (w.exchange r).1 = .ok none → (w.exchange r).2.Noted v → p.isOver started v = false →
      Course p r answer started left { v with now := p.waking v.now } xs run →
      Course p r answer started (left + 1) w (⟨r, w.now, (w.exchange r).1⟩ :: xs) run

variable {p : Poll τ} {c : Connection} {r : Request} {started : τ} {w : World τ}
  {answer : Except (Failure τ) Value → Except (Failure τ) (Option α)} {check : Op τ (Option α)}

theorem loop_course (h : check.Consults c r answer) (ho : c.serves r w = true) (started : τ) (left : Nat) :
    ∃ xs, p.Course r answer started left w xs (p.loop (.ofOp check) started left w) := by
  induction left generalizing w with
  | zero => exact ⟨[], .unasked (.inl rfl)⟩
  | succ left ih =>
      rw [loop_ofOp]
      cases hc : w.reached p.cancel with
      | true =>
          have hending : p.ending started w = .cancelled p.description (w.now - started) := by rw [ending, hc]; rfl
          exact ⟨[], hending ▸ .unasked (.inr hc)⟩
      | false =>
          obtain ⟨ha, hv⟩ := h w ho
          rcases hr : check w with ⟨e | _ | a, v⟩
          · rw [hr] at ha hv
            exact ⟨_, .decided (o := .error e) ha.symm hv⟩
          · rw [hr] at ha hv
            simp only [Bool.false_eq_true, if_false]
            cases hover : p.isOver started v with
            | true => exact ⟨_, .spent ha.symm hv hover⟩
            | false =>
                obtain ⟨_, hc'⟩ := Bool.or_eq_false_iff.1 hover
                simp only [Bool.false_eq_true, if_false]
                rw [pause_eq_waking hc']
                have hopen : c.serves r v = true := (hv.has_eq c _).trans ho
                obtain ⟨xs, hxs⟩ := ih (w := { v with now := p.waking v.now }) hopen
                exact ⟨_, .later ha.symm hv hover hxs⟩
          · rw [hr] at ha hv
            exact ⟨_, .decided (o := .ok a) ha.symm hv⟩

theorem run_course (h : check.Consults c r answer) (ho : c.serves r w = true) :
    (∃ e, p.obstacle? = some e ∧ p.run check w = (.error e, w)) ∨
      p.obstacle? = none ∧ ∃ xs, p.Course r answer w.now p.checks w xs (p.run check w) := by
  unfold run wait
  cases p.obstacle? with
  | some e => exact .inl ⟨e, rfl, rfl⟩
  | none => exact .inr ⟨rfl, loop_course h ho w.now p.checks⟩

/-! ## Reads of a wait -/

/-- What a wait made of an exchange, after which it made some more. -/
inductive AtRead (p : Poll τ) (answer : Except (Failure τ) Value → Except (Failure τ) (Option α))
    (started : τ) (x : Exchange τ) (back : List (Exchange τ)) (run : Except (Failure τ) α × World τ) : Prop where
  | decided : back = [] → answer x.outcome = run.1.map some → x.Final run.2 → AtRead p answer started x back run
  | missed : answer x.outcome = .ok none → (back = [] → run.1 = .error (p.ending started run.2)) →
      AtRead p answer started x back run

namespace Course

variable {left : Nat} {xs : List (Exchange τ)} {run : Except (Failure τ) α × World τ}

theorem exchanges (h : p.Course r answer started left w xs run) : run.2.exchanges = w.exchanges ++ xs := by
  induction h with
  | unasked => exact (List.append_nil _).symm
  | decided _ hv => exact hv.exchanges.trans (World.exchanges_exchange _ r)
  | spent _ hv => exact hv.exchanges.trans (World.exchanges_exchange _ r)
  | @later left w v xs run _ hv _ _ ih =>
      have hv' : ({ v with now := p.waking v.now } : World τ).exchanges = v.exchanges := rfl
      rw [ih, hv', hv.exchanges, World.exchanges_exchange, List.append_assoc, List.singleton_append]

theorem apis_eq (h : p.Course r answer started left w xs run) : run.2.apis = w.apis := by
  induction h with
  | unasked => rfl
  | decided _ hv => exact hv.apis_eq
  | spent _ hv => exact hv.apis_eq
  | later _ hv _ _ ih => exact ih.trans hv.apis_eq

theorem of_nil (h : p.Course r answer started left w [] run) : run.1 = .error (p.ending started run.2) := by
  cases h
  rfl

theorem atRead (h : p.Course r answer started left w xs run) {front back : List (Exchange τ)} {x : Exchange τ}
    (hx : xs = front ++ x :: back) :
    x.request = r ∧ (∀ y ∈ front, answer y.outcome = .ok none) ∧ p.AtRead answer started x back run := by
  -- The induction is on the course; a split of its exchanges is at the first of them, or splits the rest.
  induction h generalizing front with
  | unasked => cases front <;> cases hx
  | decided ha hv =>
      cases front with
      | nil =>
          cases hx
          exact ⟨rfl, List.forall_mem_nil _, .decided rfl ha ⟨_, rfl, rfl, hv⟩⟩
      | cons _ front => cases front <;> cases (List.cons.inj hx).2
  | spent ha hv _ =>
      cases front with
      | nil =>
          cases hx
          exact ⟨rfl, List.forall_mem_nil _, .missed ha fun _ => rfl⟩
      | cons _ front => cases front <;> cases (List.cons.inj hx).2
  | later ha _ _ hrest ih =>
      cases front with
      | nil =>
          cases hx
          refine ⟨rfl, List.forall_mem_nil _, .missed ha fun hback => ?_⟩
          subst hback
          exact hrest.of_nil
      | cons y front =>
          obtain ⟨hy, htail⟩ := List.cons.inj hx
          subst hy
          obtain ⟨hr, hfront, hat⟩ := ih htail
          exact ⟨hr, List.forall_mem_cons.2 ⟨ha, hfront⟩, hat⟩

/-- A wait that yields something yields it with its last read. -/
theorem yielded (h : p.Course r answer started left w xs run) {b : α} (hb : run.1 = .ok b) :
    ∃ front x, xs = front ++ [x] ∧ answer x.outcome = .ok (some b) := by
  rcases List.eq_nil_or_concat' xs with rfl | ⟨front, x, rfl⟩
  · rw [h.of_nil] at hb
    cases hb
  · obtain ⟨_, _, hat⟩ := h.atRead rfl
    refine ⟨front, x, rfl, ?_⟩
    cases hat with
    | decided _ ha _ =>
        rw [hb] at ha
        exact ha
    | missed _ hend =>
        rw [hend rfl] at hb
        cases hb

/-! ### On an exact clock -/

section Exact

variable [Time.Exact τ]

open Time

/-- With enough checks for the time that is left, a wait that found nothing is cancelled or out of time. -/
theorem isOver_of_missed (h : p.Course r answer started left w xs run) (hw : w.script.Forward)
    (hleft : w.reached p.cancel = true ∨
      ∃ n, left = n + 1 ∧ started + p.timeout.amount ≤ w.now + times p.interval.amount n)
    (hmissed : ∀ front x, xs = front ++ [x] → answer x.outcome = .ok none) :
    p.isOver started run.2 = true := by
  -- Each check but the first comes a whole interval later, unless the wait is cancelled before it.
  induction h with
  | unasked hno =>
      rcases hleft with hc | ⟨n, hn, _⟩
      · rw [isOver, hc, Bool.or_true]
      · rcases hno with hzero | hc
        · cases hn.symm.trans hzero
        · rw [isOver, hc, Bool.or_true]
  | decided ha _ =>
      have hnone := hmissed [] _ rfl
      exact absurd (ha.symm.trans hnone) (map_some_ne_none _)
  | spent _ _ hover => exact hover
  | @later left w v xs run _ hv hover _ ih =>
      obtain ⟨hlate, hc⟩ := Bool.or_eq_false_iff.1 hover
      have hnow : w.now ≤ v.now := hv.now_eq ▸ hw.le_exchange r
      have hforward : v.script.Forward := by
        obtain ⟨notes, rfl, _⟩ := hv
        exact hw.answer r
      refine ih hforward ?_ fun front x hx => hmissed (⟨r, w.now, (w.exchange r).1⟩ :: front) x (by rw [hx]; rfl)
      rcases hleft with hreached | ⟨n, hn, hle⟩
      · rw [reached_mono hnow hreached] at hc
        cases hc
      · obtain rfl := Nat.succ.inj hn
        cases left with
        | zero =>
            rw [times, Exact.add_zero, Exact.add_comm] at hle
            exact absurd (Exact.le_sub_iff.2 (Exact.le_trans hle hnow)) (of_decide_eq_false hlate)
        | succ n =>
            rcases waking_cases p v with hcut | hwaking
            · exact .inl hcut
            · refine .inr ⟨n, rfl, ?_⟩
              show _ ≤ p.waking v.now + _
              rw [hwaking, Exact.add_assoc, ← Exact.times_succ']
              exact Exact.le_trans hle ((Exact.add_le_add_iff_right _).2 hnow)

/-- A wait whose arguments are in order may ask as often as fits into its timeout. -/
theorem isOver_of_missed_run (h : p.Course r answer w.now p.checks w xs run) (hp : p.obstacle? = none)
    (hw : w.script.Forward) (hmissed : ∀ front x, xs = front ++ [x] → answer x.outcome = .ok none) :
    p.isOver w.now run.2 = true := by
  have hargs : p.argumentProblem = none := by
    unfold obstacle? at hp
    split at hp
    · cases hp
    · assumption
  unfold argumentProblem at hargs
  split at hargs
  · cases hargs
  · rename_i hi
    split at hargs
    · cases hargs
    · rename_i ht
      have hi' : 0 < p.interval.amount := Exact.lt_iff_not_ge.2 hi
      have ht' : 0 ≤ p.timeout.amount := Classical.not_not.1 fun hn => ht (Exact.lt_iff_not_ge.2 hn)
      have hle : 0 ≤ p.interval.amount := (Exact.le_total _ _).resolve_right hi
      refine h.isOver_of_missed hw (.inr ⟨strides p.interval.amount p.timeout.amount + 1, rfl, ?_⟩) hmissed
      rw [Exact.add_comm w.now, Exact.add_comm w.now, Exact.add_le_add_iff_right]
      exact Exact.le_trans (Exact.le_times_strides hi' ht') (Exact.times_mono hle (Nat.le_succ _))

end Exact

/-- What a wait makes of an answer, whichever it is: it ends with it at once, or goes on. -/
theorem decides (h : p.Course r answer w.now p.checks w xs run) (hp : p.obstacle? = none)
    {front back : List (Exchange τ)} {x : Exchange τ} (hx : xs = front ++ x :: back) :
    match answer x.outcome with
    | .error e => back = [] ∧ x.Final run.2 ∧ run.1 = .error e
    | .ok (some b) => back = [] ∧ x.Final run.2 ∧ run.1 = .ok b
    | .ok none => back = [] → run.1 = .error (p.ending w.now run.2) ∧
        (Time.Exact τ → w.script.Forward → p.isOver w.now run.2 = true) := by
  obtain ⟨_, _, hat⟩ := h.atRead hx
  cases hat with
  | decided hback ha hfinal =>
      rw [ha]
      cases hrun : run.1 with
      | error e => exact ⟨hback, hfinal, rfl⟩
      | ok b => exact ⟨hback, hfinal, rfl⟩
  | missed ha hend =>
      rw [ha]
      refine fun hback => ⟨hend hback, fun _ hw => h.isOver_of_missed_run hp hw fun front' x' hx' => ?_⟩
      subst hback
      obtain rfl : x = x' := (List.cons.inj (List.append_inj_right' (hx.symm.trans hx') rfl)).1
      exact ha

end Course

end Poll

theorem Condition.poll_course {c : Connection} {r : Request} {k : Condition τ} {w : World τ}
    {answer : Except (Failure τ) Value → Except (Failure τ) (Option Value)} (h : k.check.Consults c r answer)
    (ho : c.serves r w = true) (interval timeout : Seconds τ) (cancel : Option τ) :
    let p : Poll τ := ⟨k.description, interval, timeout, cancel⟩
    (∃ e, k.poll interval timeout cancel w = (.error e, w)) ∨
      p.obstacle? = none ∧ ∃ xs, p.Course r answer w.now p.checks w xs (k.poll interval timeout cancel w) :=
  (Poll.run_course h ho).imp_left fun ⟨e, _, hrun⟩ => ⟨e, hrun⟩

/-! ## Waits that are reported -/

/-- A sink takes notes before and after a run that it is told about, and keeps its outcome, or it breaks it off. -/
theorem withProgress_cases (sink : Option (Sink τ)) (message : String) (body : Op τ α) (w : World τ) :
    (∃ e v, withProgress sink message body w = (.error e, v) ∧ w.Noted v ∧ ∃ s ∈ sink, s.Breaks e) ∨
      ∃ u v o, withProgress sink message body w = (o, v) ∧ w.Noted u ∧ (body u).2.Noted v ∧
        (o = (body u).1 ∨ ∃ e, o = .error e ∧ ∃ s ∈ sink, s.Breaks e) := by
  cases sink with
  | none => exact .inr ⟨w, _, _, rfl, .refl w, .refl _, .inl rfl⟩
  | some s =>
      obtain ⟨u, hu, hstart | ⟨e, he, hstart⟩⟩ := s.report_cases .start message w
      · right
        rcases hbody : body u with ⟨e | a, v⟩
        · cases hi : e.isInterrupt with
          | true =>
              refine ⟨u, v, .error e, ?_, hu, by rw [hbody]; exact .refl v, .inl (by rw [hbody])⟩
              simp [withProgress, Sink.around, orElse, onFailure, bind_run, hstart, hbody, hi]
          | false =>
              obtain ⟨v', hv', hend | ⟨f, hf, hend⟩⟩ :=
                s.report_cases .failure (message ++ " failed: " ++ e.message) v
              · refine ⟨u, v', .error e, ?_, hu, by rw [hbody]; exact hv', .inl (by rw [hbody])⟩
                simp [withProgress, Sink.around, orElse, onFailure, bind_run, hstart, hbody, hi, hend]
              · refine ⟨u, v', .error f, ?_, hu, by rw [hbody]; exact hv', .inr ⟨f, rfl, s, rfl, hf⟩⟩
                simp [withProgress, Sink.around, orElse, onFailure, bind_run, hstart, hbody, hi, hend]
        · obtain ⟨v', hv', hend | ⟨f, hf, hend⟩⟩ := s.report_cases .success message v
          · refine ⟨u, v', .ok a, ?_, hu, by rw [hbody]; exact hv', .inl (by rw [hbody])⟩
            simp only [withProgress, Sink.around, orElse, onFailure, bind_run, hstart, hbody, hend, pure_run]
          · refine ⟨u, v', .error f, ?_, hu, by rw [hbody]; exact hv', .inr ⟨f, rfl, s, rfl, hf⟩⟩
            simp only [withProgress, Sink.around, orElse, onFailure, bind_run, hstart, hbody, hend]
      · left
        exact ⟨e, u, by simp [withProgress, Sink.around, bind_run, hstart], hu, s, rfl, he⟩

end ClusterControl
