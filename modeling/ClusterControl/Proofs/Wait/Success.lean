import ClusterControl.Proofs.Connection.PrimitiveSteps
import ClusterControl.Proofs.Op.Orderly
import ClusterControl.Proofs.Wait.Conditions
import ClusterControl.Proofs.Wait.Rounds

/-!
# When a wait sees what it waits for

A wait that reads one object succeeds only if a read shows what is waited for, after reads that miss it and leave
time for another. On an exact clock, and as long as answers take no negative time, it succeeds whenever that is so:
there is no other bound on the number of these reads.
-/

namespace ClusterControl

variable {τ α β : Type}

/-! ## Answers that take no negative time -/

/-- Time does not run backwards while the endpoint answers. -/
def Script.ForwardAt [Time τ] (s : Script τ) (e : Endpoint) : Prop := ∀ a ∈ s.queue e, 0 ≤ a.cost

/-- Time does not run backwards while the cluster answers. -/
def Script.Forward [Time τ] (s : Script τ) : Prop := ∀ e, ∀ a ∈ s.queue e, 0 ≤ a.cost

namespace Script

variable [Time τ]

theorem forward_nil : Forward ([] : Script τ) := fun _ _ h => absurd h List.not_mem_nil

theorem Forward.put {s : Script τ} (h : s.Forward) (e : Endpoint) {queue : List (Response τ)}
    (hq : ∀ a ∈ queue, 0 ≤ a.cost) : (s.put e queue).Forward := by
  intro f a ha
  rw [queue_put] at ha
  split at ha
  · exact hq a ha
  · exact h f a ha

end Script

section Exact

variable [Time τ] [Time.Exact τ]

namespace Time.Exact

theorem le_add {a d : τ} (h : 0 ≤ d) : a ≤ a + d := by
  have hsum := (add_le_add_iff_right a).2 h
  rwa [add_comm 0 a, add_comm d a, add_zero] at hsum

theorem times_mono {d : τ} (h : 0 ≤ d) {m n : Nat} (hmn : m ≤ n) : times d m ≤ times d n := by
  induction hmn with
  | refl => exact le_refl _
  | step _ ih => exact le_trans ih (le_add h)

theorem inRange_seconds (s : Seconds τ) : s.inRange = true := by
  cases s with
  | whole n => exact inRange n
  | real t => rfl

theorem times_succ' (d : τ) (n : Nat) : times d (n + 1) = d + times d n := add_comm _ _

end Time.Exact

open Time

namespace Script.ForwardAt

variable {s : Script τ} {r : Request}

theorem cost (h : s.ForwardAt r.endpoint) : 0 ≤ (s.answer r).1.cost := by
  unfold Script.answer
  split
  · exact Exact.le_refl 0
  · rename_i hq
    exact h _ (hq ▸ List.mem_singleton_self _)
  · rename_i hq
    exact h _ (hq ▸ List.mem_cons_self)

theorem le_exchange {w : World τ} (h : w.script.ForwardAt r.endpoint) : w.now ≤ (w.exchange r).2.now :=
  Exact.le_add h.cost

end Script.ForwardAt

namespace Script.Forward

variable {s : Script τ}

theorem cost (h : s.Forward) (r : Request) : 0 ≤ (s.answer r).1.cost := ForwardAt.cost (h r.endpoint)

omit [Exact τ] in
theorem answer (h : s.Forward) (r : Request) : (s.answer r).2.Forward :=
  fun e a ha => h e a (mem_queue_of_answer ha)

theorem le_exchange {w : World τ} (h : w.script.Forward) (r : Request) : w.now ≤ (w.exchange r).2.now :=
  ForwardAt.le_exchange (h r.endpoint)

end Script.Forward

end Exact

variable [Time τ]

/-! ## Operations that ask one question -/

namespace Op

/-- One exchange, if the connection holds the API for it, whose answer decides the outcome. -/
def Inquires (c : Connection) (r : Request) (answer : Except (Failure τ) Value → Except (Failure τ) α)
    (x : Op τ α) : Prop :=
  ∀ w, x w =
    if c.serves r w then (answer (w.exchange r).1, (w.exchange r).2) else (.error Connection.closed, w)

variable {c : Connection} {r : Request} {answer : Except (Failure τ) Value → Except (Failure τ) α}

theorem Inquires.bind {x : Op τ α} {f : α → Op τ β} {next : α → Except (Failure τ) β}
    (hx : x.Inquires c r answer) (hf : ∀ a, f a = ofExcept (next a)) :
    (x >>= f).Inquires c r fun o => (answer o).bind next := by
  intro w
  rw [bind_run, hx w]
  cases c.serves r w with
  | false => rfl
  | true =>
      cases ha : answer (w.exchange r).1 with
      | error e => simp [ha, Except.bind]
      | ok a => simp [ha, Except.bind, hf]

theorem Inquires.emits {x : Op τ α} (h : x.Inquires c r answer) : x.Emits (.asks r answer) := by
  intro w
  rw [h w]
  cases c.serves r w with
  | false => exact ⟨[], (List.append_nil _).symm, .unasked⟩
  | true => exact ⟨_, World.exchanges_exchange w r, .asked rfl rfl⟩

omit [Time τ] in
theorem map_some_ne_none (o : Except (Failure τ) α) : o.map some ≠ .ok none := by
  cases o with
  | error e => exact fun h => by cases h
  | ok a => exact fun h => by cases h

omit [Time τ] in
/-- The tries of a wait that asks one question: answers that miss, and then at most one other answer, which
decides. -/
theorem Trace.Tried.of_asks {answer : Except (Failure τ) Value → Except (Failure τ) (Option α)}
    {xs : List (Exchange τ)} {o : Except (Failure τ) α} (h : Trace.Tried (.asks r answer) xs o) :
    ∃ misses last, xs = misses ++ last ∧ (∀ x ∈ misses, x.request = r ∧ answer x.outcome = .ok none) ∧
      ((last = [] ∧ ∃ e, o = .error e) ∨ ∃ x, last = [x] ∧ x.request = r ∧
        answer x.outcome = o.map some) := by
  induction h with
  | ended e => exact ⟨[], [], rfl, List.forall_mem_nil _, .inl ⟨rfl, e, rfl⟩⟩
  | failed ht =>
      cases ht with
      | unasked => exact ⟨[], [], rfl, List.forall_mem_nil _, .inl ⟨rfl, _, rfl⟩⟩
      | asked hr he => exact ⟨[], [_], rfl, List.forall_mem_nil _, .inr ⟨_, rfl, hr, he.symm⟩⟩
  | yielded ht =>
      cases ht with
      | asked hr ha => exact ⟨[], [_], rfl, List.forall_mem_nil _, .inr ⟨_, rfl, hr, ha.symm⟩⟩
  | missed ht _ ih =>
      obtain ⟨misses, last, rfl, hmisses, hlast⟩ := ih
      cases ht with
      | asked hr hn => exact ⟨_ :: misses, last, rfl, List.forall_mem_cons.2 ⟨⟨hr, hn.symm⟩, hmisses⟩, hlast⟩

end Op

/-! ## Sightings -/

/-- From one world to another a wait that reads through a connection makes some reads, of which the last
one shows what is waited for. A read is made unless the wait is cancelled. After one that misses it goes on if it is
neither cancelled nor out of time, and sleeps before the next. -/
inductive Poll.Sees (p : Poll τ) (c : Connection) (r : Request) (misses shows : Except (Failure τ) Value → Prop)
    (started : τ) : World τ → List (Exchange τ) → World τ → Prop where
  | now {w : World τ} : c.serves r w = true → w.reached p.cancel = false → shows (w.exchange r).1 →
      Sees p c r misses shows started w [⟨r, w.now, (w.exchange r).1⟩] (w.exchange r).2
  | later {w v : World τ} {xs : List (Exchange τ)} : c.serves r w = true → w.reached p.cancel = false →
      misses (w.exchange r).1 → (w.exchange r).2.reached p.cancel = false →
      ¬ p.timeout.amount ≤ (w.exchange r).2.now - started →
      Sees p c r misses shows started { (w.exchange r).2 with now := p.waking (w.exchange r).2.now } xs v →
      Sees p c r misses shows started w (⟨r, w.now, (w.exchange r).1⟩ :: xs) v

namespace Poll

variable {p : Poll τ} {c : Connection} {r : Request} {started : τ} {w v : World τ} {xs : List (Exchange τ)}

section

variable {misses shows misses' shows' : Except (Failure τ) Value → Prop}

theorem Sees.congr (h : p.Sees c r misses shows started w xs v) (hm : ∀ o, misses o ↔ misses' o)
    (hs : ∀ o, shows o ↔ shows' o) : p.Sees c r misses' shows' started w xs v := by
  induction h with
  | now ho hc ha => exact .now ho hc ((hs _).1 ha)
  | later ho hc ha hc' ht _ ih => exact .later ho hc ((hm _).1 ha) hc' ht ih

theorem Sees.exchanges (h : p.Sees c r misses shows started w xs v) : v.exchanges = w.exchanges ++ xs := by
  induction h with
  | now => exact World.exchanges_exchange _ r
  | @later w v xs _ _ _ _ _ _ ih =>
      have hrest : v.exchanges = (w.exchange r).2.exchanges ++ xs := ih
      rw [hrest, World.exchanges_exchange, List.append_assoc, List.singleton_append]

theorem Sees.forward (h : p.Sees c r misses shows started w xs v) (hw : w.script.Forward) : v.script.Forward := by
  induction h with
  | now => exact hw.answer r
  | later _ _ _ _ _ _ ih => exact ih (hw.answer r)

end

variable {answer : Except (Failure τ) Value → Except (Failure τ) (Option α)} {check : Op τ (Option α)}

theorem loop_inquires (h : check.Inquires c r answer) (ho : c.serves r w = true) (hc : w.reached p.cancel = false)
    (left : Nat) :
    p.loop (.ofOp check) started (left + 1) w = match answer (w.exchange r).1 with
      | .error e => (.error e, (w.exchange r).2)
      | .ok (some a) => (.ok a, (w.exchange r).2)
      | .ok none =>
        if p.isOver started (w.exchange r).2 then
          (.error (p.ending started (w.exchange r).2), (w.exchange r).2)
        else p.loop (.ofOp check) started left ((w.exchange r).2.pause p.interval.amount p.cancel) := by
  have hcheck : check w = (answer (w.exchange r).1, (w.exchange r).2) := by rw [h w, if_pos ho]
  rw [loop_ofOp, if_neg (by rw [hc]; exact Bool.false_ne_true), hcheck]
  rcases answer (w.exchange r).1 with _ | _ | _ <;> rfl

theorem loop_of_sees (h : check.Inquires c r answer)
    (hsees : p.Sees c r (answer · = .ok none) (∃ a, answer · = .ok (some a)) started w xs v) {left : Nat}
    (hleft : xs.length ≤ left) : ∃ a, p.loop (.ofOp check) started left w = (.ok a, v) := by
  induction hsees generalizing left with
  | now ho hc ha =>
      obtain ⟨left, rfl⟩ : ∃ n, left = n + 1 := Nat.exists_eq_add_of_le' hleft
      obtain ⟨a, ha⟩ := ha
      exact ⟨a, by rw [loop_inquires h ho hc, ha]⟩
  | later ho hc ha hc' ht _ ih =>
      obtain ⟨left, rfl⟩ : ∃ n, left = n + 1 := Nat.exists_eq_add_of_le' (Nat.le_trans (Nat.succ_pos _) hleft)
      obtain ⟨a, hloop⟩ := ih (Nat.le_of_succ_le_succ hleft)
      refine ⟨a, ?_⟩
      rw [loop_inquires h ho hc, ha]
      simp only [isOver, hc', ht, decide_false, Bool.or_self, Bool.false_eq_true, if_false]
      rw [pause_eq_waking hc', hloop]

theorem sees_of_loop (h : check.Inquires c r answer) {left : Nat} {a : α}
    (hloop : p.loop (.ofOp check) started left w = (.ok a, v)) :
    ∃ xs, xs.length ≤ left ∧
      p.Sees c r (answer · = .ok none) (∃ a, answer · = .ok (some a)) started w xs v := by
  induction left generalizing w with
  | zero =>
      rw [loop] at hloop
      cases hloop
  | succ left ih =>
      have hc : w.reached p.cancel = false := by
        cases hc : w.reached p.cancel with
        | false => rfl
        | true => rw [loop_ofOp, if_pos hc] at hloop; cases hloop
      have ho : c.serves r w = true := by
        cases ho : c.serves r w with
        | true => rfl
        | false => rw [loop_ofOp, if_neg (by rw [hc]; exact Bool.false_ne_true), h w, ho] at hloop; cases hloop
      rw [loop_inquires h ho hc] at hloop
      rcases ha : answer (w.exchange r).1 with e | _ | a'
      · rw [ha] at hloop
        cases hloop
      · rw [ha] at hloop
        cases hover : p.isOver started (w.exchange r).2 with
        | true => simp only [hover, if_true] at hloop; cases hloop
        | false =>
            simp only [hover, Bool.false_eq_true, if_false] at hloop
            obtain ⟨ht, hc'⟩ := Bool.or_eq_false_iff.1 hover
            rw [pause_eq_waking hc'] at hloop
            obtain ⟨xs, hlength, hsees⟩ := ih hloop
            exact ⟨⟨r, w.now, (w.exchange r).1⟩ :: xs, Nat.succ_le_succ hlength,
              .later ho hc ha hc' (of_decide_eq_false ht) hsees⟩
      · rw [ha] at hloop
        obtain rfl : (w.exchange r).2 = v := congrArg Prod.snd hloop
        exact ⟨[⟨r, w.now, (w.exchange r).1⟩], Nat.succ_le_succ (Nat.zero_le left), .now ho hc ⟨a', ha⟩⟩

theorem sees_of_run (h : check.Inquires c r answer) {a : α} (hrun : p.run check w = (.ok a, v)) :
    ∃ xs, p.Sees c r (answer · = .ok none) (∃ a, answer · = .ok (some a)) w.now w xs v := by
  rw [run, wait] at hrun
  cases ho : p.obstacle? with
  | some e => rw [ho] at hrun; cases hrun
  | none =>
      rw [ho] at hrun
      obtain ⟨xs, _, hsees⟩ := sees_of_loop h hrun
      exact ⟨xs, hsees⟩

/-! ### The number of reads -/

section Exact

variable [Time.Exact τ] {misses shows : Except (Failure τ) Value → Prop}

open Time

omit [Exact τ] in
theorem Sees.reached_eq (h : p.Sees c r misses shows started w xs v) : w.reached p.cancel = false := by
  cases h with
  | now _ hc _ => exact hc
  | later _ hc _ _ _ _ => exact hc

/-- A sleep that ends before the cancellation was not cut short. -/
theorem waking_eq (h : w.reached p.cancel = false) {now : τ} (hw : w.now = p.waking now) :
    p.waking now = now + p.interval.amount := by
  unfold waking at hw ⊢
  cases hc : p.cancel with
  | none => rfl
  | some t =>
      simp only [hc] at hw ⊢
      split at hw
      · rw [hc, World.reached, hw, decide_eq_true (Exact.le_refl t)] at h
        cases h
      · rename_i hlate
        rw [if_neg hlate]

/-- So many sleeps begin before the deadline as there are reads that miss, and each takes its interval. -/
theorem Sees.lt_deadline (h : p.Sees c r misses shows started w xs v) (hw : w.script.Forward) {n : Nat}
    (hn : xs.length = n + 2) :
    ¬ started + p.timeout.amount ≤ w.now + times p.interval.amount n := by
  induction h generalizing n with
  | now => cases hn
  | @later w v xs _ _ _ hc ht hsees ih =>
      have hread : w.now ≤ (w.exchange r).2.now := hw.le_exchange r
      intro hlate
      cases n with
      | zero =>
          rw [times, Exact.add_zero, Exact.add_comm] at hlate
          exact ht (Exact.le_sub_iff.2 (Exact.le_trans hlate hread))
      | succ n =>
          -- The next read is not cancelled, so the sleep before it was not cut short.
          have hwaking : p.waking (w.exchange r).2.now = (w.exchange r).2.now + p.interval.amount :=
            waking_eq hsees.reached_eq rfl
          refine ih (hw.answer r) (Nat.succ.inj hn) (Exact.le_trans hlate ?_)
          show w.now + times p.interval.amount (n + 1) ≤ p.waking (w.exchange r).2.now + times p.interval.amount n
          rw [hwaking, Exact.times_succ', ← Exact.add_assoc, Exact.add_le_add_iff_right, Exact.add_le_add_iff_right]
          exact hread

theorem Sees.length_le (h : p.Sees c r misses shows w.now w xs v) (hi : 0 ≤ p.interval.amount)
    (hfill : p.timeout.amount ≤ times p.interval.amount (strides p.interval.amount p.timeout.amount))
    (hw : w.script.Forward) : xs.length ≤ p.checks := by
  by_contra hmany
  obtain ⟨n, hn⟩ : ∃ n, xs.length = n + 2 := Nat.exists_eq_add_of_le' (by unfold checks at hmany; omega)
  have hstrides : strides p.interval.amount p.timeout.amount ≤ n := by unfold checks at hmany; omega
  refine h.lt_deadline hw hn ?_
  rw [Exact.add_comm w.now, Exact.add_comm w.now, Exact.add_le_add_iff_right]
  exact Exact.le_trans hfill (Exact.times_mono hi hstrides)

/-- A wait whose arguments are in order, and which would see what it waits for, does so. -/
theorem run_of_sees (h : check.Inquires c r answer) (hi : 0 < p.interval.amount) (ht : 0 ≤ p.timeout.amount)
    (hw : w.script.Forward)
    (hsees : p.Sees c r (answer · = .ok none) (∃ a, answer · = .ok (some a)) w.now w xs v) :
    ∃ a, p.run check w = (.ok a, v) := by
  rw [run, wait_eq_loop (Exact.lt_iff_not_ge.1 hi) (fun h => Exact.lt_iff_not_ge.1 h ht)
    ⟨Exact.inRange_seconds p.timeout, Exact.inRange_seconds p.interval⟩]
  have hi' : 0 ≤ p.interval.amount := (Exact.le_total _ _).resolve_right fun hle => Exact.lt_iff_not_ge.1 hi hle
  exact loop_of_sees h hsees (hsees.length_le hi' (Exact.le_times_strides hi ht) hw)

end Exact

end Poll

end ClusterControl
