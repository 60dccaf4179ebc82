import ClusterControl.Time.Rational
import ClusterControl.Wait.Definition

/-!
# The phase that a failed wait names

A wait for a resource definition keeps its phase from one use to the next, and a failure names the phase
that was kept. Established polls are always named rightly, existence polls only as long as no use found
the definition.
-/

namespace ClusterControl

theorem Phase.label_inj {p q : Phase} : p.label = q.label ↔ p = q := by
  cases p <;> cases q <;> simp [label]

namespace DefinitionWait

variable {τ : Type} [Time τ]

/-! ## Uses -/

/-- One use of a wait, in the world that it meets. -/
structure Use (τ : Type) where
  world : World τ
  timeout : Seconds τ
  establishedTimeout : Option (Seconds τ) := none
  cancel : Option τ := none

/-- What a use ends with, and the wait for the next use. -/
def outcome (w : DefinitionWait τ) (u : Use τ) : Except (Failure τ) Unit × DefinitionWait τ :=
  match (w.run u.timeout u.establishedTimeout u.cancel u.world).1 with
  | .ok r => r
  | .error e => (.error e, w)

/-- The phase that the failure of a use names. -/
def failedPhase? (w : DefinitionWait τ) (u : Use τ) : Option String :=
  match (w.outcome u).1 with
  | .error (.definition _ phase _ _) => some phase
  | _ => none

/-- The wait after some uses, the latest of which comes first. -/
def after (w : DefinitionWait τ) : List (Use τ) → DefinitionWait τ
  | [] => w
  | u :: us => ((w.after us).outcome u).2

def existencePoll (w : DefinitionWait τ) (u : Use τ) : Except (Failure τ) Value × World τ :=
  (Condition.definitionExists w.connection w.name).poll w.interval u.timeout u.cancel u.world

/-- The poll for the definition to be established, in the world that the first one leaves. -/
def establishedPoll (w : DefinitionWait τ) (u : Use τ) : Except (Failure τ) Value × World τ :=
  (do
    let condition ← Op.ofChecked (Condition.definitionEstablished w.connection w.name)
    condition.poll w.interval (u.establishedTimeout.getD u.timeout) u.cancel : Op τ Value)
    (w.existencePoll u).2

def Finds (w : DefinitionWait τ) (u : Use τ) : Prop := ∃ v, (w.existencePoll u).1 = .ok v

def Establishes (w : DefinitionWait τ) (u : Use τ) : Prop :=
  w.Finds u ∧ ∃ v, (w.establishedPoll u).1 = .ok v

/-! Which phase a wait was left in makes no difference to its polls. -/

@[simp] theorem existencePoll_inPhase (w : DefinitionWait τ) (ph : Phase) :
    (w.inPhase ph).existencePoll = w.existencePoll := rfl

/-- A failure of a poll as the wait reports it. -/
def named (w : DefinitionWait τ) (e : Failure τ) : Failure τ :=
  if e.isInterrupt then e else .definition w.name w.phase.label e.message (some e)

theorem poll_run (w : DefinitionWait τ) (condition : Condition τ) (timeout : Seconds τ)
    (cancel : Option τ) (v : World τ) :
    w.poll condition timeout cancel v =
      match condition.poll w.interval timeout cancel v with
      | (.ok _, v) => (.ok (), v)
      | (.error e, v) => (.error (w.named e), v) := by
  simp only [poll, Op.orElse, Op.onFailure, Op.bind_run]
  rcases condition.poll w.interval timeout cancel v with ⟨e | a, v⟩
  · cases he : e.isInterrupt <;> simp [named, he]
  · rfl

theorem existence_run (w : DefinitionWait τ) (u : Use τ) :
    w.existence u.timeout u.cancel u.world =
      match w.existencePoll u with
      | (.ok _, v) => (.ok (), v)
      | (.error e, v) => (.error (w.named e), v) :=
  poll_run w _ u.timeout u.cancel u.world

/-- The second phase may also fail before its poll, for a name that is no text. -/
theorem established_run (w : DefinitionWait τ) (u : Use τ) :
    (∃ a, (w.establishedPoll u).1 = .ok a ∧
      (w.established (u.establishedTimeout.getD u.timeout) u.cancel (w.existencePoll u).2).1 = .ok ()) ∨
    ∃ e f, (w.establishedPoll u).1 = .error e ∧ (f = w.named e ∨ ∃ issues, f = .invalid issues) ∧
      (w.established (u.establishedTimeout.getD u.timeout) u.cancel (w.existencePoll u).2).1 =
        .error f := by
  simp only [establishedPoll, established, Op.bind_run, Op.ofChecked, Op.ofExcept]
  cases (Condition.definitionEstablished w.connection w.name : Checked (Condition τ)) with
  | invalid issues => exact .inr ⟨_, _, rfl, .inr ⟨issues, rfl⟩, rfl⟩
  | valid condition =>
      simp only [Checked.outcome, poll_run]
      rcases condition.poll w.interval (u.establishedTimeout.getD u.timeout) u.cancel
        (w.existencePoll u).2 with ⟨e | a, v⟩
      · exact .inr ⟨e, _, rfl, .inl rfl, rfl⟩
      · exact .inl ⟨a, rfl, rfl⟩

theorem finish_run (w : DefinitionWait τ) (timeout : Seconds τ) (cancel : Option τ) (v : World τ) :
    w.finish timeout cancel v =
      match w.established timeout cancel v with
      | (.ok _, u) => (.ok (), u.record (.log .info ("CRD " ++ w.name.text ++ " is established")))
      | (.error e, u) => (.error e, u) := by
  rw [finish, Op.bind_run]
  rcases w.established timeout cancel v with ⟨e | _, u⟩ <;> rfl

/-- A wait whose failures nobody catches is one phase after the other. -/
theorem wait_eq (w : DefinitionWait τ) (timeout : Seconds τ) (establishedTimeout : Option (Seconds τ))
    (cancel : Option τ) :
    w.wait timeout establishedTimeout cancel = (do
      w.existence timeout cancel
      (w.inPhase .awaitingEstablished).finish (establishedTimeout.getD timeout) cancel) := by
  funext v
  simp only [wait, run, Op.bind_run, Op.attempt]
  rcases w.existence timeout cancel v with ⟨e | _, v⟩
  · rfl
  · simp only [Op.bind_run, Op.attempt]
    rcases (w.inPhase .awaitingEstablished).finish (establishedTimeout.getD timeout) cancel v with ⟨e | _, u⟩
    · rfl
    · rfl

theorem outcome_of_not_finds {w : DefinitionWait τ} {u : Use τ} (h : ¬ w.Finds u) :
    ∃ e, w.outcome u = (.error (w.named e), w) := by
  have hrun := existence_run w u
  rcases hp : w.existencePoll u with ⟨e | a, v⟩
  · rw [hp] at hrun
    exact ⟨e, by simp [outcome, run, Op.bind_run, Op.attempt, hrun]⟩
  · exact absurd ⟨a, congrArg Prod.fst hp⟩ h

theorem outcome_of_finds {w : DefinitionWait τ} {u : Use τ} (h : w.Finds u) :
    w.outcome u =
      match ((w.inPhase .awaitingEstablished).established
        (u.establishedTimeout.getD u.timeout) u.cancel (w.existencePoll u).2).1 with
      | .ok () => (.ok (), w.inPhase .done)
      | .error e => (.error e, w.inPhase .awaitingEstablished) := by
  obtain ⟨a, ha⟩ := h
  have hrun := existence_run w u
  rcases hp : w.existencePoll u with ⟨r, v⟩
  obtain rfl : r = .ok a := by rw [← ha, hp]
  rw [hp] at hrun
  simp only [outcome, run, Op.bind_run, Op.attempt, hrun, finish_run]
  rcases (w.inPhase .awaitingEstablished).established
    (u.establishedTimeout.getD u.timeout) u.cancel v with ⟨e | _, v'⟩
  · rfl
  · rfl

theorem outcome_of_establishes {w : DefinitionWait τ} {u : Use τ} (h : w.Establishes u) :
    w.outcome u = (.ok (), w.inPhase .done) := by
  obtain ⟨hf, b, hb⟩ := h
  rw [outcome_of_finds hf]
  rcases established_run (w.inPhase .awaitingEstablished) u with ⟨_, _, hok⟩ | ⟨e, _, he, _, _⟩
  · rw [existencePoll_inPhase] at hok
    simp only [hok]
  · exact absurd (hb.symm.trans he) (by simp)

theorem outcome_of_not_establishes {w : DefinitionWait τ} {u : Use τ} (hf : w.Finds u)
    (h : ¬ w.Establishes u) :
    ∃ e f, w.outcome u = (.error f, w.inPhase .awaitingEstablished) ∧
      (f = (w.inPhase .awaitingEstablished).named e ∨ ∃ issues, f = .invalid issues) := by
  rw [outcome_of_finds hf]
  rcases established_run (w.inPhase .awaitingEstablished) u with ⟨a, ha, _⟩ | ⟨e, f, _, hf', he⟩
  · exact absurd ⟨hf, a, ha⟩ h
  · rw [existencePoll_inPhase] at he
    exact ⟨e, f, by simp only [he], hf'⟩

/-! ## Many uses -/

/-- The phase that the latest of some uses to find the definition leaves: it is done if the definition
was established as well. If none finds it, the first phase is never left. -/
inductive Leaves (w : DefinitionWait τ) : List (Use τ) → Phase → Prop where
  | unused : Leaves w [] .awaitingExistence
  | missed {u : Use τ} {us : List (Use τ)} {ph : Phase} :
      ¬ w.Finds u → Leaves w us ph → Leaves w (u :: us) ph
  | found {u : Use τ} {us : List (Use τ)} :
      w.Finds u → ¬ w.Establishes u → Leaves w (u :: us) .awaitingEstablished
  | established {u : Use τ} {us : List (Use τ)} : w.Establishes u → Leaves w (u :: us) .done

/-- Uses change the phase only, and leave it as their polls say. -/
theorem after_start (c : Connection) (name : Value) (interval : Seconds τ) (us : List (Use τ)) :
    ∃ ph, (start c name interval).after us = (start c name interval).inPhase ph ∧
      Leaves (start c name interval) us ph := by
  induction us with
  | nil => exact ⟨_, rfl, .unused⟩
  | cons u us ih =>
      obtain ⟨ph, hw, hl⟩ := ih
      rw [after, hw]
      by_cases hf : ((start c name interval).inPhase ph).Finds u
      · by_cases he : ((start c name interval).inPhase ph).Establishes u
        · rw [outcome_of_establishes he]
          exact ⟨_, rfl, .established he⟩
        · obtain ⟨_, _, ho, _⟩ := outcome_of_not_establishes hf he
          rw [ho]
          exact ⟨_, rfl, .found hf he⟩
      · obtain ⟨_, ho⟩ := outcome_of_not_finds hf
        rw [ho]
        exact ⟨ph, rfl, .missed hf hl⟩

theorem Leaves.awaitingExistence_iff {w : DefinitionWait τ} {us : List (Use τ)} {ph : Phase}
    (h : Leaves w us ph) : ph = .awaitingExistence ↔ ∀ u ∈ us, ¬ w.Finds u := by
  induction h with
  | unused => simp
  | missed hf _ ih => simp [hf, ih]
  | found hf _ => simp [hf]
  | established he => simp [he.1]

theorem Leaves.done_iff {w : DefinitionWait τ} {us : List (Use τ)} {ph : Phase}
    (h : Leaves w us ph) :
    ph = .done ↔
      ∃ later v before, us = later ++ v :: before ∧ w.Establishes v ∧ ∀ u ∈ later, ¬ w.Finds u := by
  constructor
  · intro hd
    induction h with
    | unused => cases hd
    | missed hf _ ih =>
        obtain ⟨later, v, before, rfl, he, hl⟩ := ih hd
        exact ⟨_ :: later, v, before, rfl, he, by simpa [hf] using hl⟩
    | found _ _ => cases hd
    | established he => exact ⟨[], _, _, rfl, he, by simp⟩
  · rintro ⟨later, v, before, hus, he, hl⟩
    induction h generalizing later with
    | unused => simp at hus
    | missed hf _ ih =>
        cases later with
        | nil =>
            obtain ⟨rfl, rfl⟩ := List.cons.inj hus
            exact absurd he.1 hf
        | cons _ later =>
            obtain ⟨rfl, rfl⟩ := List.cons.inj hus
            exact ih later rfl fun u hu => hl u (List.mem_cons_of_mem _ hu)
    | found hf hn =>
        cases later with
        | nil =>
            obtain ⟨rfl, rfl⟩ := List.cons.inj hus
            exact absurd he hn
        | cons _ later =>
            obtain ⟨rfl, rfl⟩ := List.cons.inj hus
            exact absurd hf (hl _ List.mem_cons_self)
    | established _ => rfl

/-! ## Failures -/

theorem failedPhase?_of_named {w w' : DefinitionWait τ} {u : Use τ} {e : Failure τ} {label : String}
    (ho : (w.outcome u).1 = .error (w'.named e)) (h : w.failedPhase? u = some label) :
    label = w'.phase.label := by
  unfold failedPhase? at h
  rw [ho] at h
  unfold named at h
  split at h
  · rename_i hd
    split at hd
    · simp_all [Failure.isInterrupt]
    · cases hd
      exact (Option.some.inj h).symm
  · cases h

/-- A failure of one use of a wait, after any other uses. If the use found the definition, the failure
names the second phase. If not, it names the first phase exactly as long as no earlier use found the
definition, and it names the wait as done exactly if the latest earlier use to find it succeeded. -/
theorem failedPhase?_after_start (c : Connection) (name : Value) (interval : Seconds τ)
    (earlier : List (Use τ)) (u : Use τ) {label : String}
    (h : ((start c name interval).after earlier).failedPhase? u = some label) :
    let w := start c name interval
    (w.Finds u → label = Phase.awaitingEstablished.label) ∧
      (¬ w.Finds u →
        (label = Phase.awaitingExistence.label ↔ ∀ v ∈ earlier, ¬ w.Finds v) ∧
        (label = Phase.done.label ↔ ∃ later v before,
          earlier = later ++ v :: before ∧ w.Establishes v ∧ ∀ x ∈ later, ¬ w.Finds x)) := by
  intro w
  obtain ⟨ph, hafter, hleaves⟩ := after_start c name interval earlier
  rw [hafter] at h
  change (w.inPhase ph).failedPhase? u = some label at h
  refine ⟨fun hf => ?_, fun hf => ?_⟩
  · by_cases he : (w.inPhase ph).Establishes u
    · simp [failedPhase?, outcome_of_establishes he] at h
    · obtain ⟨e, f, ho, hname | ⟨issues, rfl⟩⟩ := outcome_of_not_establishes (w := w.inPhase ph) hf he
      · rw [hname] at ho
        exact failedPhase?_of_named (congrArg Prod.fst ho) h
      · simp [failedPhase?, ho] at h
  · obtain ⟨e, ho⟩ := outcome_of_not_finds (w := w.inPhase ph) hf
    have hlabel : label = ph.label := failedPhase?_of_named (congrArg Prod.fst ho) h
    rw [hlabel, Phase.label_inj, Phase.label_inj, hleaves.awaitingExistence_iff, hleaves.done_iff]
    exact ⟨.rfl, .rfl⟩

/-- A use through an open connection, with the same answer to every read of the definition. -/
def Use.answered (answer : Except (Failure Rat) Value) : Use Rat where
  world :=
    (World.initial [(Kind.definition.endpoint .read .null, [⟨answer, 0⟩])] []).connected
  timeout := .real 0

theorem not_finds_null : ¬ (start ⟨0, {}⟩ "apps.paas.io" (.real 1)).Finds (.answered (.ok .null)) := by
  rintro ⟨v, hv⟩
  have h : ((start ⟨0, {}⟩ "apps.paas.io" (.real 1)).existencePoll
    (.answered (.ok .null))).1.isOk = false := by decide +kernel
  rw [hv] at h
  cases h

/-- A wait that is used again after a use in which the definition was not there. -/
theorem failedPhase?_after_miss :
    ((start ⟨0, {}⟩ "apps.paas.io" (.real 1)).after [.answered (.ok .null)]).failedPhase?
        (.answered (.ok .null)) = some "awaiting-existence" ∧
      ∀ v ∈ [Use.answered (.ok .null)], ¬ (start ⟨0, {}⟩ "apps.paas.io" (.real 1)).Finds v := by
  have h : ((start ⟨0, {}⟩ "apps.paas.io" (.real 1)).after [.answered (.ok .null)]).failedPhase?
      (.answered (.ok .null)) = some "awaiting-existence" := by decide +kernel
  exact ⟨h, ((failedPhase?_after_start _ _ _ _ _ h).2 not_finds_null).1.1 rfl⟩

/-- A wait that is used again after it succeeded calls itself done when the definition is gone. -/
theorem failedPhase?_after_success :
    ((start ⟨0, {}⟩ "apps.paas.io" (.real 1)).after
        [.answered (.ok (.obj [("status", .obj [("conditions",
          .list [.obj [("type", "Established"), ("status", "True")]])])]))]).failedPhase?
        (.answered (.ok .null)) = some "done" ∧
      ¬ (start ⟨0, {}⟩ "apps.paas.io" (.real 1)).Finds (.answered (.ok .null)) :=
  ⟨by decide +kernel, not_finds_null⟩

end DefinitionWait

end ClusterControl
