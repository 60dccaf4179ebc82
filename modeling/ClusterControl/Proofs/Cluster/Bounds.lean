import ClusterControl.Proofs.Cluster.Answers
import ClusterControl.Proofs.Wait.Bounds
import ClusterControl.Proofs.Wait.Cancellation

/-!
# The waits of a cluster are bounded

Every wait of a cluster comes to its end, and asks its one question no more often than its timeout lets it.
-/

namespace ClusterControl

variable {τ α β : Type}

/-! ## Worlds between which one question is asked -/

/-- At most so many requests were made between the worlds, all of them the one, and no time was lost. -/
structure World.Asked [Time τ] (r : Request) (n : Nat) (w v : World τ) : Prop where
  exchanges : ∃ xs, v.exchanges = w.exchanges ++ xs ∧ (∀ x ∈ xs, x.request = r) ∧ xs.length ≤ n
  forward : v.script.Forward
  le_now : w.now ≤ v.now

namespace World

variable [Time τ] [Time.Exact τ] {r : Request} {m n : Nat} {w v u : World τ}

theorem Noted.asked (h : w.Noted v) (hw : w.script.Forward) (r : Request) : w.Asked r 0 v where
  exchanges := ⟨[], h.exchanges.trans (List.append_nil _).symm, List.forall_mem_nil _, Nat.le_refl 0⟩
  forward := by
    obtain ⟨_, rfl, _⟩ := h
    exact hw
  le_now := h.now_eq ▸ Time.Exact.le_refl _

omit [Time.Exact τ] in
theorem Asked.mono (h : w.Asked r m v) (hmn : m ≤ n) : w.Asked r n v where
  exchanges := by
    obtain ⟨xs, hxs, hall, hle⟩ := h.exchanges
    exact ⟨xs, hxs, hall, Nat.le_trans hle hmn⟩
  forward := h.forward
  le_now := h.le_now

theorem Asked.trans (h : w.Asked r m v) (h' : v.Asked r n u) : w.Asked r (m + n) u where
  exchanges := by
    obtain ⟨xs, hxs, hall, hle⟩ := h.exchanges
    obtain ⟨ys, hys, hall', hle'⟩ := h'.exchanges
    refine ⟨xs ++ ys, by rw [hys, hxs, List.append_assoc], fun x hx => ?_, ?_⟩
    · exact (List.mem_append.1 hx).elim (hall x) (hall' x)
    · rw [List.length_append]
      exact Nat.add_le_add hle hle'
  forward := h'.forward
  le_now := Time.Exact.le_trans h.le_now h'.le_now

theorem asked_exchange (hw : w.script.Forward) (r : Request) : w.Asked r 1 (w.exchange r).2 where
  exchanges := ⟨_, exchanges_exchange w r, List.forall_mem_singleton.2 rfl, Nat.le_refl 1⟩
  forward := hw.answer r
  le_now := hw.le_exchange r

theorem pause_eq (w : World τ) {d : τ} (hd : 0 ≤ d) (cancel : Option τ) :
    ∃ t, w.now ≤ t ∧ w.pause d cancel = { w with now := t } := by
  cases cancel with
  | none => exact ⟨w.now + d, Time.Exact.le_add hd, rfl⟩
  | some t =>
      simp only [pause]
      by_cases hnow : t ≤ w.now
      · exact ⟨w.now, Time.Exact.le_refl _, if_pos hnow⟩
      · rw [if_neg hnow]
        split
        · exact ⟨t, (Time.Exact.le_total _ _).resolve_right hnow, rfl⟩
        · exact ⟨w.now + d, Time.Exact.le_add hd, rfl⟩

theorem asked_pause (hw : w.script.Forward) (r : Request) {d : τ} (hd : 0 ≤ d) (cancel : Option τ) :
    w.Asked r 0 (w.pause d cancel) := by
  obtain ⟨t, ht, hpause⟩ := w.pause_eq hd cancel
  rw [hpause]
  exact ⟨⟨[], (List.append_nil _).symm, List.forall_mem_nil _, Nat.le_refl 0⟩, hw, ht⟩

end World

/-! ## Operations that ask one question -/

namespace Op

variable [Time τ]

/-- Whatever becomes of the operation, it takes notes at most. -/
def Notes (x : Op τ α) : Prop := ∀ w : World τ, w.Noted (x w).2

omit [Time τ] in
theorem Quick.notes {x : Op τ α} (h : x.Quick) : x.Notes := fun w => (h w).1

omit [Time τ] in
theorem notes_fail (e : Failure τ) : (fail e : Op τ α).Notes := fun w => .refl w

omit [Time τ] in
theorem Notes.bind {x : Op τ α} {f : α → Op τ β} (hx : x.Notes) (hf : ∀ a, (f a).Notes) : (x >>= f).Notes := by
  intro w
  have hv := hx w
  rw [bind_run]
  rcases hr : x w with ⟨e | a, v⟩
  · rwa [hr] at hv
  · rw [hr] at hv
    exact hv.trans (hf a v)

/-- Every wait in the operation, begun in this world, ends by its rules. -/
inductive Halts : {α : Type} → Op τ α → World τ → Prop where
  | notes {α : Type} {x : Op τ α} {w : World τ} : x.Notes → Halts x w
  | poll {α : Type} {p : Poll τ} {check : Op τ (Option α)} {w : World τ} : check.Glances → p.Settles (.ofOp check) w →
      Halts (p.run check) w
  | bind {α β : Type} {x : Op τ α} {f : α → Op τ β} {w : World τ} : Halts x w →
      (∀ a, (x w).1 = .ok a → Halts (f a) (x w).2) → Halts (x >>= f) w
  | onFailure {α : Type} {x : Op τ α} {handle : Failure τ → Op τ α} {w : World τ} : Halts x w →
      (∀ e, (x w).1 = .error e → Halts (handle e) (x w).2) → Halts (x.onFailure handle) w

/-- While no answer takes negative time: the operation asks the one question at most so often, and loses no time. -/
def Asks (r : Request) (n : Nat) (x : Op τ α) : Prop := ∀ w : World τ, w.script.Forward → w.Asked r n (x w).2

/-- The operation asks so often at most, and comes to its end. -/
def Bounded (r : Request) (n : Nat) (x : Op τ α) : Prop :=
  x.Asks r n ∧ ∀ w : World τ, w.script.Forward → x.Halts w

variable [Time.Exact τ] {r : Request} {m n : Nat}

/-- Without the API that it goes through the question is not even asked. -/
theorem Consults.asks {c : Connection} {answer : Except (Failure τ) Value → Except (Failure τ) α} {x : Op τ α}
    (h : x.Consults c r answer) (hrefused : x.Refused c r.endpoint.group) : x.Asks r 1 := by
  intro w hw
  cases ho : c.serves r w with
  | true =>
      have hexchange := World.asked_exchange hw r
      exact hexchange.trans ((h w ho).2.asked hexchange.forward r)
  | false =>
      rw [hrefused w ho]
      exact ((World.Noted.refl w).asked hw r).mono (Nat.zero_le 1)

omit [Time.Exact τ] in
theorem Asks.ofOp {x : Op τ (Option α)} (h : x.Asks r n) {o : Except (Raised τ) (Option α)} {w v : World τ}
    (hr : Poll.Check.ofOp x w = (o, v)) (hw : w.script.Forward) : w.Asked r n v := by
  obtain rfl : (x w).2 = v := congrArg Prod.snd hr
  exact h w hw

theorem Notes.bounded {x : Op τ α} (h : x.Notes) (r : Request) : x.Bounded r 0 :=
  ⟨fun w hw => (h w).asked hw r, fun _ _ => .notes h⟩

omit [Time.Exact τ] in
theorem Bounded.mono {x : Op τ α} (h : x.Bounded r m) (hmn : m ≤ n) : x.Bounded r n :=
  ⟨fun w hw => (h.1 w hw).mono hmn, h.2⟩

theorem Bounded.bind {x : Op τ α} {f : α → Op τ β} (hx : x.Bounded r m) (hf : ∀ a, (f a).Bounded r n) :
    (x >>= f).Bounded r (m + n) := by
  refine ⟨fun w hw => ?_, fun w hw => ?_⟩
  · have hv := hx.1 w hw
    rw [bind_run]
    rcases hr : x w with ⟨e | a, v⟩
    · rw [hr] at hv
      exact hv.mono (Nat.le_add_right m n)
    · rw [hr] at hv
      exact hv.trans ((hf a).1 v hv.forward)
  · exact .bind (hx.2 w hw) fun a _ => (hf a).2 _ (hx.1 w hw).forward

theorem Bounded.bind_notes {x : Op τ α} {f : α → Op τ β} (hx : x.Bounded r n) (hf : ∀ a, (f a).Notes) :
    (x >>= f).Bounded r n := by
  have hall := hx.bind fun a => (hf a).bounded r
  rwa [Nat.add_zero] at hall

theorem Notes.bind_bounded {x : Op τ α} {f : α → Op τ β} (hx : x.Notes) (hf : ∀ a, (f a).Bounded r n) :
    (x >>= f).Bounded r n := by
  have hall := (hx.bounded r).bind hf
  rwa [Nat.zero_add] at hall

theorem Bounded.onFailure {x : Op τ α} {handle : Failure τ → Op τ α} (hx : x.Bounded r n)
    (hh : ∀ e, (handle e).Notes) : (x.onFailure handle).Bounded r n := by
  refine ⟨fun w hw => ?_, fun w hw => .onFailure (hx.2 w hw) fun e _ => .notes (hh e)⟩
  have hv := hx.1 w hw
  rw [Op.onFailure]
  rcases hr : x w with ⟨e | a, v⟩
  · rw [hr] at hv
    exact hv.trans ((hh e v).asked hv.forward r)
  · rw [hr] at hv
    exact hv

end Op

open Op

/-! ## Polls -/

namespace Poll

section Exact

variable [Time τ] [Time.Exact τ] {p : Poll τ} {check : Op τ (Option α)} {started : τ} {w : World τ} {r : Request}

/-- Each try asks the question once at most. -/
theorem Trail.asked {xs : List (Try τ α)} {run : Except (Failure τ) α × World τ}
    (h : p.Trail (.ofOp check) started w xs run) (hcheck : check.Asks r 1) (hi : 0 ≤ p.interval.amount)
    (hw : w.script.Forward) : w.Asked r xs.length run.2 := by
  induction h with
  | @cancelled w _ => exact (World.Noted.refl w).asked hw r
  | @decided w v o _ hr => exact hcheck.ofOp hr hw
  | @spent w v x _ hr _ => exact hcheck.ofOp hr hw
  | @later w v x xs run _ hr _ _ _ ih =>
      have hv := hcheck.ofOp hr hw
      have hpause := World.asked_pause hv.forward r hi p.cancel
      rw [List.length_cons, Nat.add_comm]
      exact (hv.trans hpause).trans (ih hpause.forward)

theorem le_of_tries (hcheck : check.Asks r 1) (hi : 0 ≤ p.interval.amount) (hw : w.script.Forward) {left : Nat} :
    ∀ x ∈ p.triesFrom (.ofOp check) started left w, x.before.now ≤ x.after.now := by
  induction left, w using p.loop_induction (.ofOp check) started with
  | exhausted w => exact List.forall_mem_nil _
  | cancelled left w hc =>
      rw [(loop_reached hc (.ofOp check) started (left + 1)).2]
      exact List.forall_mem_nil _
  | decided left w v o hc hr =>
      rw [(loop_decided hc hr started left).2]
      exact List.forall_mem_singleton.2 (hcheck.ofOp hr hw).le_now
  | spent left w v x hc hr hspent =>
      rw [(loop_spent hc hr hspent left).2]
      exact List.forall_mem_singleton.2 (hcheck.ofOp hr hw).le_now
  | later left w v x hc hr hvain ho ih =>
      have hv := hcheck.ofOp hr hw
      rw [(loop_later hc hr hvain ho left).2]
      exact List.forall_mem_cons.2 ⟨hv.le_now, ih (World.asked_pause hv.forward r hi p.cancel).forward⟩

end Exact

theorem bounded_run {check : Op Rat (Option α)} {r : Request} (hcheck : check.Asks r 1) (hg : check.Glances)
    (p : Poll Rat) : (p.run check).Bounded r (fitting p.interval p.timeout) := by
  cases hp : p.obstacle? with
  | some e =>
      have hrun : p.run check = fail e := funext fun w => (wait_of_some hp (.ofOp check) w).1
      rw [hrun]
      exact ((notes_fail e).bounded r).mono (Nat.zero_le _)
  | none =>
      have hi : 0 ≤ p.interval.amount := (lt_of_not_ge (arguments_of_none hp).1).le
      have hcost (w : World Rat) (hw : w.script.Forward) : ∀ x ∈ p.tries (.ofOp check) w, 0 ≤ x.cost := by
        rw [(wait_of_none hp (.ofOp check) w).2]
        exact fun x hx => sub_nonneg.2 (le_of_tries hcheck hi hw x hx)
      refine ⟨fun w hw => ?_, fun w hw => .poll hg (settles (hcost w hw))⟩
      exact ((settles (hcost w hw) hp).asked hcheck hi hw).mono (length_tries_le (hcost w hw))

end Poll

/-! ## Waits -/

theorem Condition.bounded_poll {k : Condition Rat} {r : Request} (hask : k.check.Asks r 1) (hg : k.check.Glances)
    (interval timeout : Seconds Rat) (cancel : Option Rat) :
    (k.poll interval timeout cancel).Bounded r (Poll.fitting interval timeout) :=
  Poll.bounded_run hask hg ⟨k.description, interval, timeout, cancel⟩

namespace DefinitionWait

theorem bounded_poll (d : DefinitionWait Rat) {k : Condition Rat} {r : Request} (hask : k.check.Asks r 1)
    (hg : k.check.Glances) (timeout : Seconds Rat) (cancel : Option Rat) :
    (d.poll k timeout cancel).Bounded r (Poll.fitting d.interval timeout) := by
  have hpoll := Condition.bounded_poll hask hg d.interval timeout cancel
  refine (hpoll.bind_notes fun _ => (quick_pure ()).notes).onFailure fun e => ?_
  split
  · exact notes_fail e
  · exact notes_fail _

theorem bounded_established (d : DefinitionWait Rat) (timeout : Seconds Rat) (cancel : Option Rat) :
    (d.established timeout cancel).Bounded (Resource.readRequest .definition .null d.name)
      (Poll.fitting d.interval timeout) := by
  unfold established
  cases hk : (Condition.definitionEstablished d.connection d.name : Checked (Condition Rat)) with
  | invalid issues => exact ((notes_fail _).bounded _).mono (Nat.zero_le _)
  | valid k =>
      have hbuilt : k.Built d.connection := .reports .definition ["Established"] _ Value.null d.name hk
      obtain ⟨answer, hcheck, _⟩ := Condition.consults_reports hk
      exact bounded_poll d (hcheck.asks (Condition.refused_reports hk)) hbuilt.glances timeout cancel

theorem bounded_wait (d : DefinitionWait Rat) (timeout : Seconds Rat) (establishedTimeout : Option (Seconds Rat))
    (cancel : Option Rat) :
    (d.wait timeout establishedTimeout cancel).Bounded (Resource.readRequest .definition .null d.name)
      (Poll.fitting d.interval timeout + Poll.fitting d.interval (establishedTimeout.getD timeout)) := by
  have hexists : Condition.Built d.connection (.definitionExists d.connection d.name : Condition Rat) :=
    .definitionExists d.name rfl
  have hcheck : (Condition.definitionExists d.connection d.name : Condition Rat).check.Asks _ 1 :=
    (Condition.inquires_existence d.connection d.name).consults.asks
      (Condition.refused_definitionExists d.connection d.name)
  rw [wait_eq]
  exact (bounded_poll d hcheck hexists.glances timeout cancel).bind fun _ =>
    (bounded_established (d.inPhase .awaitingEstablished) _ cancel).bind_notes fun _ => (quick_log _ _).notes

end DefinitionWait

theorem bounded_withProgress {r : Request} {n : Nat} (sink : Option (Sink Rat)) (message : String) {body : Op Rat α}
    (h : body.Bounded r n) : (withProgress sink message body).Bounded r n := by
  cases sink with
  | none => exact h
  | some s =>
      have hreport (stage : Stage) (message : String) : (s.report stage message).Notes :=
        (s.quick_report stage message).notes
      have hbody : (body.orElse fun e => do
          s.report .failure (message ++ " failed: " ++ e.message)
          fail e).Bounded r n := by
        refine h.onFailure fun e => ?_
        split
        · exact notes_fail e
        · exact (hreport _ _).bind fun _ => notes_fail e
      exact (hreport .start message).bind_bounded fun _ => hbody.bind_notes fun a =>
        (hreport .success message).bind fun _ => (quick_pure a).notes

namespace Cluster

/-- The timeouts of a wait, one for each of its phases. -/
def Await.timeouts {τ : Type} (c : Cluster τ) (l : Limits τ) : Await τ → List (Seconds τ)
  | .definition _ established _ => [c.timeoutOf l.timeout, established.getD (c.timeoutOf l.timeout)]
  | _ => [c.timeoutOf l.timeout]

theorem bounded_await (c : Cluster Rat) (l : Limits Rat) (a : Await Rat) :
    (c.await l a).Bounded a.question ((a.timeouts c l).map (Poll.fitting c.interval)).sum := by
  have hsum (timeout : Seconds Rat) :
      ([timeout].map (Poll.fitting c.interval)).sum = Poll.fitting c.interval timeout := List.sum_singleton
  by_cases ha : ∃ name established sink, a = .definition name established sink
  · obtain ⟨name, established, sink, rfl⟩ := ha
    have hwait := (DefinitionWait.start c.connection name c.interval).bounded_wait (c.timeoutOf l.timeout)
      established l.cancel
    rw [Await.timeouts, List.map_cons, List.sum_cons, hsum]
    exact (bounded_withProgress sink _ hwait).bind_notes fun _ => (quick_pure _).notes
  · have hother : ∀ name established sink, a ≠ .definition name established sink :=
      fun name established sink h => ha ⟨name, established, sink, h⟩
    have htimeouts : a.timeouts c l = [c.timeoutOf l.timeout] := by
      cases a with
      | definition name established sink => exact absurd rfl (hother name established sink)
      | _ => rfl
    obtain ⟨message, heq⟩ := c.await_eq_wait l hother
    rw [heq, htimeouts, hsum]
    refine Bounded.bind_notes ?_ fun _ => (quick_pure _).notes
    unfold wait
    cases hk : a.condition c.connection with
    | invalid issues => exact ((notes_fail _).bounded _).mono (Nat.zero_le _)
    | valid k =>
        obtain ⟨answer, hcheck, _⟩ := Await.consults hk
        have hpoll := Condition.bounded_poll (hcheck.asks (Await.refused_check hk)) (Await.built hk).glances c.interval
          (c.timeoutOf l.timeout) l.cancel
        exact bounded_withProgress a.sink message hpoll

theorem Await.question_reads {τ : Type} (a : Await τ) :
    (∃ k ns name, a.question = Resource.readRequest k ns name) ∨
      ∃ k ns selector, a.question = Resource.listRequest k ns selector := by
  cases a with
  | podsAbsent ns selector tolerant => exact .inr ⟨.pod, ns, selector, rfl⟩
  | _ => exact .inl ⟨_, _, _, rfl⟩

end Cluster

/-- Every wait is bounded. One whose checks are all in vain runs out of time, after no more checks than fit into its
timeout. So each wait of a cluster comes to its end, whatever the cluster answers, and makes one and the same request
no more often than that, in all of its phases. -/
theorem waits_are_bounded :
    (∀ {α : Type} (p : Poll Rat) (check : Poll.Check Rat α) (w : World Rat), p.cancel = none →
      0 < p.interval.amount → 0 ≤ p.timeout.amount →
      (∀ x ∈ p.tries check w, x.outcome = .ok none ∧ 0 ≤ x.cost) → p.Expires check w) ∧
    ∀ (c : Cluster Rat) (l : Cluster.Limits Rat) (a : Cluster.Await Rat) (w : World Rat), w.script.Forward →
      (c.await l a).Halts w ∧
      ((∃ k ns name, a.question = Resource.readRequest k ns name) ∨
        ∃ k ns selector, a.question = Resource.listRequest k ns selector) ∧
      ∃ xs, (c.await l a w).2.exchanges = w.exchanges ++ xs ∧ (∀ x ∈ xs, x.request = a.question) ∧
        xs.length ≤ ((a.timeouts c l).map (Poll.fitting c.interval)).sum :=
  ⟨fun _ _ _ hp hi ht hvain => Poll.expires hp hi ht hvain, fun c l a w hw =>
    ⟨(c.bounded_await l a).2 w hw, a.question_reads, ((c.bounded_await l a).1 w hw).exchanges⟩⟩

/-- A slow check that never yields anything, and a wait for a secret that never comes. -/
theorem waits_are_bounded_of_slow :
    let p : Poll Rat := ⟨"nothing", .real 1, .real 2, none⟩
    let check : Poll.Check Rat Unit := .ofOp do Op.advance (.real (1 / 2)); pure none
    let w := World.initial [] []
    let run := Cluster.watchful.await { timeout := some (.real 3) } (.secret "jobs" "token") World.slow
    p.Expires check w ∧ (p.tries check w).length = 2 ∧ run.2.exchanges.length = 2 ∧
      ∃ xs, run.2.exchanges = World.slow.exchanges ++ xs ∧ xs.length ≤ 4 := by
  intro p check w run
  obtain ⟨hpolls, hwaits⟩ := waits_are_bounded
  have hvain : ∀ x ∈ p.tries check w, x.outcome = .ok none ∧ 0 ≤ x.cost := by
    intro x hx
    have hx' : x ∈ p.triesFrom check w.now p.checks w := hx
    have hcheck : (.ok none, x.before.advance (1 / 2)) = (x.outcome, x.after) := Poll.check_of_tries hx'
    obtain ⟨houtcome, hafter⟩ := Prod.mk.inj hcheck
    refine ⟨houtcome.symm, ?_⟩
    rw [Try.cost, ← hafter]
    show 0 ≤ x.before.now + 1 / 2 - x.before.now
    linarith
  have hslow : World.slow.script.Forward :=
    Script.forward_nil.put (Kind.secret.endpoint .read "jobs") (by decide +kernel)
  obtain ⟨_, _, xs, hxs, _, hlength⟩ :=
    hwaits Cluster.watchful { timeout := some (.real 3) } (.secret "jobs" "token") World.slow hslow
  have hfit : Poll.fitting (.real 1) (.real 3) = 4 := by
    show ⌈(3 : Rat) / 1⌉₊ + 1 = 4
    norm_num
  exact ⟨hpolls p check w rfl (by decide) (by decide) hvain, by decide +kernel, by decide +kernel, xs, hxs,
    hfit ▸ hlength⟩

end ClusterControl
