import ClusterControl.Cluster.Waits
import ClusterControl.Proofs.Wait.Refusals
import ClusterControl.Time.Rational

/-!
# The waits of a cluster

All waits go one way: a condition is built, polled at the interval of the handle, and reported on. Through a
closed connection each ends at once with the refusal of its first poll.
-/

namespace ClusterControl

namespace Cluster

variable {τ : Type}

/-- The waits, with what each is given besides its limits. -/
inductive Await (τ : Type) where
  | jobDone (ns name : Value)
  | jobCompleted (ns name : Value)
  | deployment (ns name : Value) (sink : Option (Sink τ))
  | namespaceAbsent (name : Value) (sink : Option (Sink τ))
  | podsAbsent (ns selector : Value) (tolerant : Bool)
  | secret (ns name : Value)
  | definition (name : Value) (establishedTimeout : Option (Seconds τ)) (sink : Option (Sink τ))

/-- Who is told about the wait. -/
def Await.sink : Await τ → Option (Sink τ)
  | .deployment _ _ sink | .namespaceAbsent _ sink | .definition _ _ sink => sink
  | _ => none

variable [Time τ]

/-- Waits, and hands back what the wait hands back, which for most waits is nothing. -/
def await (c : Cluster τ) (l : Limits τ) : Await τ → Op τ Value
  | .jobDone ns name => do c.awaitJobDone ns name l; pure .null
  | .jobCompleted ns name => do c.awaitJobCompleted ns name l; pure .null
  | .deployment ns name sink => do c.awaitDeployment ns name l sink; pure .null
  | .namespaceAbsent name sink => do c.awaitNamespaceAbsent name l sink; pure .null
  | .podsAbsent ns selector tolerant => do c.awaitPodsAbsent ns selector tolerant l; pure .null
  | .secret ns name => c.awaitSecret ns name l
  | .definition name establishedTimeout sink => do
    c.awaitDefinition name establishedTimeout l sink
    pure .null

/-- What the wait looks at first. -/
def Await.condition (c : Connection) : Await τ → Checked (Condition τ)
  | .jobDone ns name => Condition.jobDone c ns name
  | .jobCompleted ns name => Condition.jobCompleted c ns name
  | .deployment ns name _ => Condition.deploymentAvailable c ns name
  | .namespaceAbsent name _ => Condition.namespaceAbsent c name
  | .podsAbsent ns selector tolerant => Condition.podAbsent c ns selector tolerant
  | .secret ns name => Condition.secretPresent c ns name
  | .definition name _ _ => .valid (.definitionExists c name)

/-- The one request that a wait makes again and again. -/
def Await.question : Await τ → Request
  | .jobDone ns name | .jobCompleted ns name => Resource.readRequest .job ns name
  | .deployment ns name _ => Resource.readRequest .deployment ns name
  | .namespaceAbsent name _ => Resource.readRequest .namespaceKind .null name
  | .podsAbsent ns selector _ => Resource.listRequest .pod ns selector
  | .secret ns name => Resource.readRequest .secret ns name
  | .definition name _ _ => Resource.readRequest .definition .null name

/-- What becomes of the value that ended the wait. -/
def Await.result (a : Await τ) (v : Value) : Value :=
  match a with
  | .secret _ _ => v
  | _ => .null

/-- All waits but the one for a definition poll a single condition. -/
theorem await_eq_wait (c : Cluster τ) (l : Limits τ) {a : Await τ}
    (ha : ∀ name establishedTimeout sink, a ≠ .definition name establishedTimeout sink) :
    ∃ message, c.await l a = (do
      let v ← c.wait (a.condition c.connection) l a.sink message
      pure (a.result v)) := by
  cases a with
  | jobDone ns name => exact ⟨"", by simp [await, awaitJobDone, Await.condition, Await.sink, Await.result]⟩
  | jobCompleted ns name =>
      exact ⟨"", by simp [await, awaitJobCompleted, Await.condition, Await.sink, Await.result]⟩
  | deployment ns name sink =>
      exact ⟨_, by simp only [await, awaitDeployment, bind_assoc, pure_bind]; rfl⟩
  | namespaceAbsent name sink =>
      exact ⟨_, by simp only [await, awaitNamespaceAbsent, bind_assoc, pure_bind]; rfl⟩
  | podsAbsent ns selector tolerant =>
      exact ⟨"", by simp [await, awaitPodsAbsent, Await.condition, Await.sink, Await.result]⟩
  | secret ns name => exact ⟨"", by simp [await, awaitSecret, Await.condition, Await.sink, Await.result]⟩
  | definition name establishedTimeout sink => exact absurd rfl (ha name establishedTimeout sink)

theorem await_cases (c : Cluster τ) (l : Limits τ) (a : Await τ) :
    (∃ name establishedTimeout sink, a = .definition name establishedTimeout sink) ∨
      ∃ message, c.await l a = (do
        let v ← c.wait (a.condition c.connection) l a.sink message
        pure (a.result v)) := by
  by_cases ha : ∃ name establishedTimeout sink, a = .definition name establishedTimeout sink
  · exact .inl ha
  · exact .inr (c.await_eq_wait l fun name establishedTimeout sink h => ha ⟨name, establishedTimeout, sink, h⟩)

theorem Await.built {a : Await τ} {k : Condition τ} {c : Connection} (h : a.condition c = .valid k) :
    k.Built c := by
  cases a with
  | jobDone ns name => exact .reports _ _ _ ns name h
  | jobCompleted ns name => exact .reports _ _ _ ns name h
  | deployment ns name sink => exact .reports _ _ _ ns name h
  | namespaceAbsent name sink => exact .namespaceAbsent name h
  | podsAbsent ns selector tolerant => exact .podAbsent ns selector tolerant h
  | secret ns name => exact .secretPresent ns name h
  | definition name establishedTimeout sink => exact .definitionExists name (Checked.valid.inj h).symm

/-! ## Waits through a closed connection -/

open Op

theorem Await.refused_check {a : Await τ} {k : Condition τ} {c : Connection} (h : a.condition c = .valid k) :
    k.check.Refused c a.question.endpoint.group := by
  cases a with
  | jobDone ns name => exact Condition.refused_reports h
  | jobCompleted ns name => exact Condition.refused_reports h
  | deployment ns name sink => exact Condition.refused_reports h
  | namespaceAbsent name sink => exact Condition.refused_namespaceAbsent h
  | podsAbsent ns selector tolerant => exact Condition.refused_podAbsent h
  | secret ns name => exact Condition.refused_secretPresent h
  | definition name establishedTimeout sink => exact Checked.valid.inj h ▸ Condition.refused_definitionExists c name

/-- A wait for a definition reports what ended it together with the phase, here the first one. -/
def Await.reported (a : Await τ) (e : Failure τ) : Failure τ :=
  match a with
  | .definition name _ _ => .definition name Phase.awaitingExistence.label e.message (some e)
  | _ => e

/-- Why a wait ends at once that can never look. Already the condition may be rejected. -/
def Await.refusal (c : Cluster τ) (l : Limits τ) (a : Await τ) (w : World τ) : Failure τ :=
  a.reported <| match a.condition c.connection with
    | .invalid issues => .invalid issues
    | .valid k => Poll.refusal ⟨k.description, c.interval, c.timeoutOf l.timeout, l.cancel⟩ w

theorem Await.reported_eq {a : Await τ}
    (ha : ∀ name establishedTimeout sink, a ≠ .definition name establishedTimeout sink) (e : Failure τ) :
    a.reported e = e := by
  cases a with
  | definition name establishedTimeout sink => exact absurd rfl (ha name establishedTimeout sink)
  | _ => rfl

/-- The operation ends at once with the failure, or is broken off by the sink. -/
def EndsAt {α : Type} (x : Op τ α) (sink : Option (Sink τ)) (e : Failure τ) (w : World τ) : Prop :=
  ∃ f v, x w = (.error f, v) ∧ w.Noted v ∧ (f = e ∨ ∃ s ∈ sink, s.Breaks f)

omit [Time τ] in
theorem EndsAt.bind {α β : Type} {x : Op τ α} {sink : Option (Sink τ)} {e : Failure τ} {w : World τ}
    (h : EndsAt x sink e w) (f : α → Op τ β) : EndsAt (x >>= f) sink e w := by
  obtain ⟨g, v, hx, hrest⟩ := h
  exact ⟨g, v, by rw [bind_run, hx], hrest⟩

variable {c : Cluster τ} {w : World τ}

theorem awaitDefinition_refused (hw : c.connection.has .definitions w = false) (name : Value)
    (establishedTimeout : Option (Seconds τ)) (l : Limits τ) (sink : Option (Sink τ)) :
    EndsAt (c.awaitDefinition name establishedTimeout l sink) sink
      ((DefinitionWait.start c.connection name c.interval).refusal (c.timeoutOf l.timeout) l.cancel w) w := by
  refine withProgress_error _ rfl fun v hv => ?_
  have hrun := (DefinitionWait.start c.connection name c.interval).run_refused
    ((hv.has_eq c.connection .definitions).trans hw) (c.timeoutOf l.timeout) establishedTimeout l.cancel
  rw [DefinitionWait.wait, bind_run, hrun, DefinitionWait.refusal_eq _ _ _ hv]
  rfl

/-- Without the API for its question no wait goes on, and none succeeds. -/
theorem await_refused {a : Await τ} (hw : c.connection.serves a.question w = false) (l : Limits τ) :
    EndsAt (c.await l a) a.sink (a.refusal c l w) w := by
  by_cases ha : ∃ name establishedTimeout sink, a = .definition name establishedTimeout sink
  · obtain ⟨name, establishedTimeout, sink, rfl⟩ := ha
    exact (awaitDefinition_refused hw name establishedTimeout l sink).bind _
  · have hother : ∀ name establishedTimeout sink, a ≠ .definition name establishedTimeout sink :=
      fun name establishedTimeout sink h => ha ⟨name, establishedTimeout, sink, h⟩
    obtain ⟨message, heq⟩ := c.await_eq_wait l hother
    rw [heq]
    refine EndsAt.bind ?_ _
    rw [Await.refusal, Await.reported_eq hother]
    cases hk : a.condition c.connection with
    | invalid issues => exact ⟨_, w, rfl, .refl w, .inl rfl⟩
    | valid k =>
        refine withProgress_error message (Poll.isInterrupt_refusal _ w) fun v hv => ?_
        rw [Condition.poll_refused (Await.refused_check hk) ((hv.has_eq c.connection _).trans hw),
          Poll.refusal_eq _ hv]

end Cluster

/-- A cluster without the secret that is waited for, which takes a second for each answer. -/
def World.slow : World Rat :=
  (World.initial [(Kind.secret.endpoint .read "jobs", [⟨.ok .null, 1⟩])] []).connected

end ClusterControl
