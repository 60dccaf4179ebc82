import ClusterControl.Proofs.Connection.Closed
import ClusterControl.Wait.Definition
import ClusterControl.Wait.Progress

/-!
# Waits through a closed connection

Such a wait ends at its first look at the latest, before any time passes: with the failure of the closed
connection, unless its limits are rejected or it is cancelled beforehand. Whoever is told about the wait can
only break it off.
-/

namespace ClusterControl

variable {τ α : Type} [Time τ] {c : Connection} {w v : World τ}

open Op

/-! ## Polls -/

theorem World.Noted.reached_eq (h : w.Noted v) (t : Option τ) : v.reached t = w.reached t := by
  cases t with
  | none => rfl
  | some t => exact congrArg (fun now => decide (t ≤ now)) h.now_eq

namespace Poll

/-- Why a wait ends at once that can never look. -/
def refusal (p : Poll τ) (w : World τ) : Failure τ :=
  match p.obstacle? with
  | some e => e
  | none => if w.reached p.cancel then .cancelled p.description (w.now - w.now) else Connection.closed

theorem refusal_eq (p : Poll τ) (h : w.Noted v) : p.refusal v = p.refusal w := by
  rw [refusal, refusal, h.reached_eq, h.now_eq]

theorem isInterrupt_refusal (p : Poll τ) (w : World τ) : (p.refusal w).isInterrupt = false := by
  unfold refusal obstacle?
  split
  · rename_i h
    split at h
    · obtain rfl := Option.some.inj h
      rfl
    · split at h
      · cases h
      · obtain rfl := Option.some.inj h
        rfl
  · split <;> rfl

theorem run_refused {check : Op τ (Option α)} {g : Group} (h : check.Refused c g) (p : Poll τ)
    (hw : c.has g w = false) : p.run check w = (.error (p.refusal w), w) := by
  unfold run wait refusal
  cases p.obstacle? with
  | some e => rfl
  | none =>
      show p.loop (.ofOp check) w.now (Time.strides p.interval.amount p.timeout.amount + 2) w = _
      rw [loop_ofOp]
      cases w.reached p.cancel with
      | true => rfl
      | false => simp [h w hw]

end Poll

/-! ## Conditions -/

/-- The conditions on what is reached through a connection. -/
inductive Condition.Built (c : Connection) (k : Condition τ) : Prop where
  | reports (kind : Kind) (types : List String) (what : String) (ns name : Value) :
      reports c kind types what ns name = .valid k → Built c k
  | namespaceAbsent (name : Value) : namespaceAbsent c name = .valid k → Built c k
  | podAbsent (ns selector : Value) (tolerant : Bool) : podAbsent c ns selector tolerant = .valid k → Built c k
  | secretPresent (ns name : Value) : secretPresent c ns name = .valid k → Built c k
  | definitionExists (name : Value) : k = definitionExists c name → Built c k

theorem Checked.map_eq_valid {α β : Type} {f : α → β} {x : Checked α} {b : β} (h : x.map f = .valid b) :
    ∃ a, b = f a := by
  cases x with
  | valid a => exact ⟨a, (Checked.valid.inj h).symm⟩
  | invalid issues => cases h

namespace Condition

theorem refused_existing (c : Connection) (k : Kind) (ref : Ref) :
    (existing c k ref : Op τ Value).Refused c k.group :=
  (Resource.refused_get c k _ _).bind _

theorem refused_reports {kind : Kind} {types : List String} {what : String} {ns name : Value} {k : Condition τ}
    (h : reports c kind types what ns name = .valid k) : k.check.Refused c kind.group := by
  obtain ⟨ref, rfl⟩ := Checked.map_eq_valid h
  exact ((refused_existing c kind ref).bind _).bind _

theorem refused_namespaceAbsent {name : Value} {k : Condition τ} (h : namespaceAbsent c name = .valid k) :
    k.check.Refused c Kind.namespaceKind.group := by
  obtain ⟨ref, rfl⟩ := Checked.map_eq_valid h
  exact ((Resource.refused_get c .namespaceKind .null name).bind _).bind _

theorem refused_podAbsent {ns selector : Value} {tolerant : Bool} {k : Condition τ}
    (h : podAbsent c ns selector tolerant = .valid k) : k.check.Refused c Kind.pod.group := by
  obtain ⟨ref, rfl⟩ := Checked.map_eq_valid h
  have hlist : (some <$> Resource.list c .pod ns selector : Op τ (Option Value)).Refused c Kind.pod.group :=
    (Resource.refused_list c .pod ns selector).bind _
  exact ((hlist.onRejection _).bind _).bind _

theorem refused_secretPresent {ns name : Value} {k : Condition τ} (h : secretPresent c ns name = .valid k) :
    k.check.Refused c Kind.secret.group := by
  obtain ⟨ref, rfl⟩ := Checked.map_eq_valid h
  exact Resource.refused_get c .secret ns name

theorem refused_definitionExists (c : Connection) (name : Value) :
    (definitionExists c name : Condition τ).check.Refused c Kind.definition.group :=
  ((Resource.refused_get c .definition .null name).bind _).bind _

/-- No condition takes a missing API for an answer. -/
theorem Built.refused_check {k : Condition τ} (h : Built c k) : ∃ g, k.check.Refused c g := by
  cases h with
  | reports kind types what ns name h => exact ⟨_, refused_reports h⟩
  | namespaceAbsent name h => exact ⟨_, refused_namespaceAbsent h⟩
  | podAbsent ns selector tolerant h => exact ⟨_, refused_podAbsent h⟩
  | secretPresent ns name h => exact ⟨_, refused_secretPresent h⟩
  | definitionExists name h => exact ⟨_, h ▸ refused_definitionExists c name⟩

theorem poll_refused {k : Condition τ} {g : Group} (h : k.check.Refused c g) (hw : c.has g w = false)
    (interval timeout : Seconds τ) (cancel : Option τ) :
    k.poll interval timeout cancel w = (.error (Poll.refusal ⟨k.description, interval, timeout, cancel⟩ w), w) :=
  Poll.run_refused h _ hw

end Condition

namespace Watch

theorem idle_check {k : Watch τ} (h : k.condition.Built c) : (k.check).Idle c :=
  h.refused_check.elim fun _ hrefused => (hrefused.bind _).idle

theorem poll_closed {k : Watch τ} (h : k.condition.Built c) (hw : c.isClosed w = true)
    (interval timeout : Seconds τ) (cancel : Option τ) :
    k.poll interval timeout cancel w =
      (.error (Poll.refusal ⟨k.condition.description, interval, timeout, cancel⟩ w), w) := by
  obtain ⟨g, hrefused⟩ := h.refused_check
  rw [poll, bind_run, Condition.poll_refused hrefused (Connection.has_of_isClosed hw g)]

end Watch

/-! ## Waits for a definition -/

namespace DefinitionWait

/-- Why a wait for a definition ends at once: the phase in which it was, and the refusal of the first poll. -/
def refusal (d : DefinitionWait τ) (timeout : Seconds τ) (cancel : Option τ) (w : World τ) : Failure τ :=
  let k : Condition τ := .definitionExists d.connection d.name
  let e := Poll.refusal ⟨k.description, d.interval, timeout, cancel⟩ w
  .definition d.name d.phase.label e.message (some e)

theorem refusal_eq (d : DefinitionWait τ) (timeout : Seconds τ) (cancel : Option τ) (h : w.Noted v) :
    d.refusal timeout cancel v = d.refusal timeout cancel w := by
  simp only [refusal, Poll.refusal_eq _ h]

theorem run_refused (d : DefinitionWait τ) (hw : d.connection.has .definitions w = false) (timeout : Seconds τ)
    (establishedTimeout : Option (Seconds τ)) (cancel : Option τ) :
    d.run timeout establishedTimeout cancel w = (.ok (.error (d.refusal timeout cancel w), d), w) := by
  have hpoll := Condition.poll_refused (Condition.refused_definitionExists d.connection d.name) hw
    d.interval timeout cancel
  have hexistence : d.existence timeout cancel w = (.error (d.refusal timeout cancel w), w) := by
    simp [existence, poll, orElse, onFailure, bind_run, hpoll, Poll.isInterrupt_refusal, refusal]
  simp [run, bind_run, attempt, hexistence]

end DefinitionWait

/-! ## Reports -/

namespace Sink

/-- A failure with which the sink breaks off what is reported to it. -/
def Breaks (s : Sink τ) (e : Failure τ) : Prop :=
  match s with
  | .logger => False
  | .relay refuses => e.isInterrupt = true ∧ ∃ stage, refuses stage = some e

theorem report_cases (s : Sink τ) (stage : Stage) (message : String) (w : World τ) :
    ∃ v, w.Noted v ∧ (s.report stage message w = (.ok (), v) ∨
      ∃ e, s.Breaks e ∧ s.report stage message w = (.error e, v)) := by
  have hnoted (level : Level) (text : String) (w : World τ) : w.Noted (w.record (.log level text)) :=
    w.noted_record fun _ h => by cases h
  have hpassed : w.Noted (w.record (.progress stage message)) := w.noted_record fun _ h => by cases h
  cases s with
  | logger =>
      cases stage with
      | start => exact ⟨_, hnoted _ _ w, .inl rfl⟩
      | success => exact ⟨_, hnoted _ _ w, .inl rfl⟩
      | failure => exact ⟨_, hnoted _ _ w, .inl rfl⟩
  | relay refuses =>
      cases hr : refuses stage with
      | none => exact ⟨_, hpassed, .inl (by simp [report, deliver, orElse, onFailure, bind_run, hr])⟩
      | some e =>
          cases he : e.isInterrupt with
          | true =>
              refine ⟨_, hpassed, .inr ⟨e, ⟨he, stage, hr⟩, ?_⟩⟩
              simp [report, deliver, orElse, onFailure, bind_run, hr, he]
          | false =>
              refine ⟨_, hpassed.trans (hnoted .warning ("Progress sink failed: " ++ e.message) _), .inl ?_⟩
              simp [report, deliver, orElse, onFailure, bind_run, hr, he, log]

/-- A body that fails at once fails just so under a sink, unless the sink breaks it off. -/
theorem around_error (s : Sink τ) (message : String) {body : Op τ α} {e : Failure τ}
    (he : e.isInterrupt = false) (h : ∀ v, w.Noted v → body v = (.error e, v)) :
    ∃ f v, s.around message body w = (.error f, v) ∧ w.Noted v ∧ (f = e ∨ s.Breaks f) := by
  obtain ⟨v, hv, hstart | ⟨f, hf, hstart⟩⟩ := s.report_cases .start message w
  · obtain ⟨u, hu, hfailure | ⟨f, hf, hfailure⟩⟩ :=
      s.report_cases .failure (message ++ " failed: " ++ e.message) v
    · refine ⟨e, u, ?_, hv.trans hu, .inl rfl⟩
      simp [around, orElse, onFailure, bind_run, hstart, h v hv, he, hfailure]
    · refine ⟨f, u, ?_, hv.trans hu, .inr hf⟩
      simp [around, orElse, onFailure, bind_run, hstart, h v hv, he, hfailure]
  · exact ⟨f, v, by simp [around, bind_run, hstart], hv, .inr hf⟩

end Sink

theorem withProgress_error {sink : Option (Sink τ)} (message : String) {body : Op τ α} {e : Failure τ}
    (he : e.isInterrupt = false) (h : ∀ v, w.Noted v → body v = (.error e, v)) :
    ∃ f v, withProgress sink message body w = (.error f, v) ∧ w.Noted v ∧
      (f = e ∨ ∃ s ∈ sink, s.Breaks f) := by
  cases sink with
  | none => exact ⟨e, w, h w (.refl w), .refl w, .inl rfl⟩
  | some s =>
      obtain ⟨f, v, hrun, hv, hf⟩ := s.around_error message he h
      exact ⟨f, v, hrun, hv, hf.imp_right fun hb => ⟨s, rfl, hb⟩⟩

end ClusterControl
