import ClusterControl.Proofs.Cluster.Awaits
import ClusterControl.Proofs.Time.Exact
import ClusterControl.Proofs.Wait.Cancellation

/-!
# The waits of a cluster obey their cancellation
-/

namespace ClusterControl

variable {τ α : Type} [Time τ]

open Op

namespace Cluster

theorem obeys_wait (c : Cluster τ) {k : Checked (Condition τ)}
    (hk : ∀ k', k = .valid k' → k'.Built c.connection) (timeout : Option (Seconds τ)) (sink : Option (Sink τ))
    (message : String) (t : τ) : (c.wait k { timeout, cancel := some t } sink message).Obeys t := by
  cases k with
  | invalid issues => exact (quick_fail (Failure.not_inVain rfl rfl rfl)).obeys
  | valid k => exact obeys_withProgress sink message ((hk k rfl).obeys_poll _ _ t)

theorem obeys_await (c : Cluster τ) (timeout : Option (Seconds τ)) (a : Await τ) (t : τ) :
    (c.await { timeout, cancel := some t } a).Obeys t := by
  obtain ⟨name, establishedTimeout, sink, rfl⟩ | ⟨message, heq⟩ :=
    c.await_cases { timeout, cancel := some t } a
  · have hwait := (DefinitionWait.start c.connection name c.interval).obeys_wait (c.timeoutOf timeout)
      establishedTimeout t
    exact (obeys_withProgress sink _ hwait).bind fun _ => (quick_pure _).obeys
  · rw [heq]
    exact (c.obeys_wait (fun _ hk => Await.built hk) timeout a.sink message t).bind fun _ => (quick_pure _).obeys

end Cluster

/-! ## On an exact clock -/

/-- All calls between the worlds began before the instant, and the clock shows no more than the latest of the
earlier time, the instant, and the ends of the calls. -/
structure World.EndsInTime (t : τ) (w : World τ) (xs : List (Exchange τ)) (v : World τ) : Prop where
  exchanges : v.exchanges = w.exchanges ++ xs
  starts : ∀ x ∈ xs, x.start < t
  now : ∃ latest ∈ w.now :: t :: w.script.ends xs, v.now ≤ latest

theorem World.Heeds.endsInTime [Time.Exact τ] {t : τ} {w v : World τ} {xs : List (Exchange τ)}
    (h : w.Heeds t xs v) : w.EndsInTime t xs v where
  exchanges := h.exchanges
  starts x hx := Time.Exact.lt_iff_not_ge.2 (h.starts x hx)
  now := by
    rcases h.now with hv | hv | hv | hv
    · exact ⟨w.now, List.mem_cons_self, hv ▸ Time.Exact.le_refl _⟩
    · exact ⟨t, List.mem_cons_of_mem _ List.mem_cons_self, hv ▸ Time.Exact.le_refl _⟩
    · exact ⟨t, List.mem_cons_of_mem _ List.mem_cons_self, (Time.Exact.le_total t v.now).resolve_left hv⟩
    · exact ⟨v.now, List.mem_cons_of_mem _ (List.mem_cons_of_mem _ hv), Time.Exact.le_refl _⟩

/-- The operation obeys a cancellation at the instant: its calls begin before the instant, it ends in time, and
whether it was cancelled or timed out is true when it ends. -/
structure Op.Obedient (t : τ) (x : Op τ α) (w : World τ) (xs : List (Exchange τ)) : Prop where
  heeds : w.Heeds t xs (x w).2
  inTime : Time.Exact τ → w.EndsInTime t xs (x w).2
  truth : ∀ f, (x w).1 = .error f → f.TrueAt t xs (x w).2.now

theorem Op.Obeys.obedient {t : τ} {x : Op τ α} (h : x.Obeys t) (w : World τ) : ∃ xs, x.Obedient t w xs := by
  obtain ⟨xs, hheeds, htruth⟩ := h w
  exact ⟨xs, hheeds, fun _ => hheeds.endsInTime, htruth⟩

/-- Every wait obeys its cancellation, whatever else it is given and whatever the cluster answers. -/
theorem waits_obey_cancellation (t : τ) (w : World τ) :
    (∀ (c : Cluster τ) (timeout : Option (Seconds τ)) (a : Cluster.Await τ),
      ∃ xs, (c.await { timeout, cancel := some t } a).Obedient t w xs) ∧
    ∀ (d : DefinitionWait τ) (timeout : Seconds τ) (establishedTimeout : Option (Seconds τ)),
      ∃ xs, (d.wait timeout establishedTimeout (some t)).Obedient t w xs :=
  ⟨fun c timeout a => (c.obeys_await timeout a t).obedient w,
    fun d timeout establishedTimeout => (d.obeys_wait timeout establishedTimeout t).obedient w⟩

/-- A wait that is cancelled during its second look. -/
theorem waits_obey_cancellation_of_slow :
    let run := Cluster.watchful.await { timeout := none, cancel := some (5 / 2) } (.secret "jobs" "token") World.slow
    run.2.exchanges.length = 2 ∧ run.2.now = 3 ∧ ∃ xs, World.slow.EndsInTime (5 / 2) xs run.2 := by
  intro run
  have hlength : run.2.exchanges.length = 2 := by decide +kernel
  have hnow : run.2.now = 3 := by decide +kernel
  obtain ⟨hwaits, _⟩ := waits_obey_cancellation (5 / 2 : Rat) World.slow
  obtain ⟨xs, hobedient⟩ := hwaits Cluster.watchful none (.secret "jobs" "token")
  exact ⟨hlength, hnow, xs, hobedient.inTime inferInstance⟩

end ClusterControl
