import ClusterControl.Proofs.Cluster.Answers
import ClusterControl.Proofs.Wait.Sooner

/-!
# Jobs that finish

A job is done once it has failed or is complete. Waiting until it is done never takes more reads or more time than
waiting until it is complete, and takes the same if the job does not fail.
-/

namespace ClusterControl

variable {τ α : Type} [Time τ]

open Op Resource

/-! ## Waits for a report -/

namespace Condition

theorem inquires_reports {c : Connection} {k : Kind} {ns name : Value} {ref : Ref}
    (href : Ref.named k ns name = .valid ref) (types : List String) :
    (holds do look (hasCondition (← existing c k ref) types) : Op τ (Option Value)).Inquires c (readRequest k ns name)
      (shown ref types) := by
  obtain ⟨_, hns, hname⟩ := Ref.named_eq_valid href
  have hlook : (do look (hasCondition (← existing c k ref) types) : Op τ Bool).Inquires c
      (readRequest k (.ofOption ref.ns) (.ofOption ref.name)) fun o =>
        (present ref o).bind fun v => (hasCondition v types).mapError .malformed :=
    (inquires_existing c k ref).bind fun _ => rfl
  rw [hns, hname] at hlook
  exact hlook.bind fun _ => rfl

end Condition

namespace Cluster

open Condition

/-- How a wait goes on, whatever it waits for. -/
def pace (c : Cluster τ) (l : Limits τ) : Poll τ := ⟨"", c.interval, c.timeoutOf l.timeout, l.cancel⟩

/-- A wait whose arguments are in order sees, in the checks that it has, that the resource reports one of the types. -/
structure SeesReport (c : Cluster τ) (k : Kind) (ns name : Value) (l : Limits τ) (ref : Ref) (types : List String)
    (w : World τ) (xs : List (Exchange τ)) (v : World τ) : Prop where
  named : Ref.named k ns name = .valid ref
  inOrder : (c.pace l).obstacle? = none
  length_le : xs.length ≤ (c.pace l).checks
  sees : (c.pace l).Sees c.connection (readRequest k ns name) (shown ref types · = .ok none)
    (∃ a, shown ref types · = .ok (some a)) w.now w xs v

variable {c : Cluster τ} {k : Kind} {ns name : Value} {l : Limits τ} {ref : Ref} {types types' : List String}
  {w v : World τ} {xs : List (Exchange τ)}

theorem wait_eq_ok_iff (types : List String) (what message : String) :
    (∃ a, c.wait (reports c.connection k types what ns name) l none message w = (.ok a, v)) ↔
      ∃ ref xs, c.SeesReport k ns name l ref types w xs v := by
  cases href : Ref.named k ns name with
  | invalid issues =>
      constructor
      · rintro ⟨a, hrun⟩
        simp only [wait, reports, href] at hrun
        cases hrun
      · rintro ⟨ref, xs, hsees⟩
        cases href.symm.trans hsees.named
  | valid ref =>
      have hwait : c.wait (reports c.connection k types what ns name) l none message =
          (Poll.run ⟨ref.text ++ " " ++ what, c.interval, c.timeoutOf l.timeout, l.cancel⟩
            (holds do look (hasCondition (← Condition.existing c.connection k ref) types))) := by
        simp only [wait, reports, href]
        rfl
      rw [hwait, Poll.run_eq_ok_iff (inquires_reports href types)]
      constructor
      · rintro ⟨hp, xs, hlength, hsees⟩
        exact ⟨ref, xs, href, hp, hlength, hsees.rename⟩
      · rintro ⟨ref', xs, href', hp, hlength, hsees⟩
        obtain rfl := Checked.valid.inj (href.symm.trans href')
        exact ⟨hp, xs, hlength, hsees.rename⟩

omit [Time τ] in
theorem dropped_eq_ok_iff {x : Op τ α} : (do let _ ← x : Op τ Unit) w = (.ok (), v) ↔ ∃ a, x w = (.ok a, v) := by
  rw [bind_run]
  rcases x w with ⟨e | a, u⟩ <;> simp

theorem awaitJobDone_eq_ok_iff :
    c.awaitJobDone ns name l w = (.ok (), v) ↔
      ∃ ref xs, c.SeesReport .job ns name l ref ["Failed", "Complete"] w xs v :=
  dropped_eq_ok_iff.trans (wait_eq_ok_iff _ _ _)

theorem awaitJobCompleted_eq_ok_iff :
    c.awaitJobCompleted ns name l w = (.ok (), v) ↔ ∃ ref xs, c.SeesReport .job ns name l ref ["Complete"] w xs v :=
  dropped_eq_ok_iff.trans (wait_eq_ok_iff _ _ _)

/-- A wait for more types ends no later. -/
theorem SeesReport.sooner (h : c.SeesReport k ns name l ref types w xs v) (ht : types ⊆ types') :
    ∃ u ys zs, c.SeesReport k ns name l ref types' w ys u ∧ xs = ys ++ zs ∧
      (Time.Exact τ → w.script.ForwardAt (k.endpoint .read ns) → u.now ≤ v.now) := by
  have hmiss (o : Except (Failure τ) Value) (ho : shown ref types o = .ok none) :
      shown ref types' o = .ok none ∨ ∃ a, shown ref types' o = .ok (some a) := by
    obtain ⟨_ | a, ho', _⟩ := shown_mono ht ho
    · exact .inl ho'
    · exact .inr ⟨a, ho'⟩
  have hshow (o : Except (Failure τ) Value) (ho : ∃ a, shown ref types o = .ok (some a)) :
      ∃ a, shown ref types' o = .ok (some a) := by
    obtain ⟨a, ho⟩ := ho
    obtain ⟨a', ho', hsome⟩ := shown_mono ht ho
    obtain ⟨b, rfl⟩ := Option.isSome_iff_exists.1 (hsome rfl)
    exact ⟨b, ho'⟩
  obtain ⟨u, ys, zs, hsees, rfl, hu⟩ := h.sees.sooner hmiss hshow
  refine ⟨u, ys, zs, ⟨h.named, h.inOrder, ?_, hsees⟩, rfl, fun _ hforward => ?_⟩
  · exact Nat.le_trans (by simp) h.length_le
  · rcases hu with rfl | hrest
    · exact Time.Exact.le_refl _
    · have hi : 0 ≤ (c.pace l).interval.amount :=
        (Time.Exact.le_total _ _).resolve_right (Poll.arguments_of_none h.inOrder).1
      exact Time.Exact.le_trans (hrest.le_waking hi) (hrest.le_now hi (hsees.forwardAt hforward))

/-- A wait for more types ends as one for fewer does, if no read shows one of the others. -/
theorem SeesReport.of_append (h : c.SeesReport k ns name l ref (types ++ types') w xs v)
    (hno : ∀ x ∈ xs, ∀ object, x.outcome = .ok object → ¬ object.Reports types) :
    c.SeesReport k ns name l ref types' w xs v where
  named := h.named
  inOrder := h.inOrder
  length_le := h.length_le
  sees := h.sees.transfer (fun x hx ho => (shown_append (hno x hx)).symm.trans ho)
    fun x hx ⟨a, ho⟩ => ⟨a, (shown_append (hno x hx)).symm.trans ho⟩

/-! ## Done and complete -/

/-- Where waiting until a job is complete succeeds, waiting until it is done succeeds with no more reads and, as long as
reading takes no negative time, no later. Where waiting until it is done succeeds without a read that shows a failure,
waiting until it is complete ends in the same way. -/
theorem jobDone_no_later (c : Cluster τ) (ns name : Value) (l : Limits τ) (w : World τ) :
    (∀ v, c.awaitJobCompleted ns name l w = (.ok (), v) → ∃ u xs ys, c.awaitJobDone ns name l w = (.ok (), u) ∧
      u.exchanges = w.exchanges ++ xs ∧ v.exchanges = w.exchanges ++ (xs ++ ys) ∧
      (∀ x ∈ xs ++ ys, x.request = readRequest .job ns name) ∧
      (Time.Exact τ → w.script.ForwardAt (Kind.job.endpoint .read ns) → u.now ≤ v.now)) ∧
    ∀ u, c.awaitJobDone ns name l w = (.ok (), u) → ∃ xs, u.exchanges = w.exchanges ++ xs ∧
      (∀ x ∈ xs, x.request = readRequest .job ns name) ∧
      ((∀ x ∈ xs, ∀ job, x.outcome = .ok job → ¬ job.Reports ["Failed"]) →
        c.awaitJobCompleted ns name l w = (.ok (), u)) := by
  constructor
  · intro v hcompleted
    obtain ⟨ref, xs, hsees⟩ := awaitJobCompleted_eq_ok_iff.1 hcompleted
    obtain ⟨u, ys, zs, hdone, rfl, hnow⟩ := hsees.sooner (List.subset_cons_self "Failed" ["Complete"])
    exact ⟨u, ys, zs, awaitJobDone_eq_ok_iff.2 ⟨ref, ys, hdone⟩, hdone.sees.exchanges, hsees.sees.exchanges,
      hsees.sees.requests, hnow⟩
  · intro u hdone
    obtain ⟨ref, xs, hsees⟩ := awaitJobDone_eq_ok_iff.1 hdone
    have hsplit : c.SeesReport .job ns name l ref (["Failed"] ++ ["Complete"]) w xs u := hsees
    exact ⟨xs, hsees.sees.exchanges, hsees.sees.requests, fun hno =>
      awaitJobCompleted_eq_ok_iff.2 ⟨ref, xs, hsplit.of_append hno⟩⟩

/-- A job that is shown without a status, then as failed, and then as complete after all. -/
def recovering : World Rat :=
  let ended (type : String) : Value := .obj [("status", .obj [("conditions",
    .list [.obj [("type", .str type), ("status", "True")]])])]
  (World.initial [(Kind.job.endpoint .read "apps",
      [⟨.ok (.obj []), 1⟩, ⟨.ok (ended "Failed"), 1⟩, ⟨.ok (ended "Complete"), 1⟩])] []).connected

/-- Waiting until the job is complete takes a third read. -/
theorem jobDone_no_later_of_recovering :
    let completed := watchful.awaitJobCompleted "apps" "migrate" {} recovering
    let done := watchful.awaitJobDone "apps" "migrate" {} recovering
    completed.1 = .ok () ∧ completed.2.exchanges.length = 3 ∧ done.2.exchanges.length = 2 ∧
      done.1 = .ok () ∧ done.2.now ≤ completed.2.now := by
  intro completed done
  have hcompleted : completed.1 = .ok () := eq_ok_of_isOk (by decide +kernel)
  obtain ⟨hsooner, _⟩ := jobDone_no_later watchful "apps" "migrate" {} recovering
  obtain ⟨u, xs, ys, hdone, _, _, _, hnow⟩ := hsooner completed.2 (Prod.ext hcompleted rfl)
  have hforward : recovering.script.ForwardAt (Kind.job.endpoint .read "apps") := by
    unfold Script.ForwardAt
    decide +kernel
  refine ⟨hcompleted, by decide +kernel, by decide +kernel, congrArg Prod.fst hdone, ?_⟩
  have hu : done.2 = u := congrArg Prod.snd hdone
  rw [hu]
  exact hnow inferInstance hforward

end Cluster

end ClusterControl
