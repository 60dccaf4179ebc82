import ClusterControl.Proofs.Connection.Operations
import ClusterControl.Proofs.Wait.Sinks

/-!
# Waits and removals under a sink

What a sink does with the reports makes no difference to a wait or a removal: they end in the same way after the
same exchanges, at the same time. A wait under a sink is reported once when it starts and once when it ends.
-/

namespace ClusterControl

variable {τ α : Type}

open Op Connection

/-- The runs end in the same way after the same exchanges, at the same time. -/
structure SameEffect (run run' : Except (Failure τ) α × World τ) : Prop where
  outcome : run.1 = run'.1
  exchanges : run.2.exchanges = run'.2.exchanges
  now : run.2.now = run'.2.now

theorem Op.Twins.sameEffect {x y : Op τ α} (h : Twins World.SameButNotes x y) (w : World τ) :
    SameEffect (x w) (y w) := by
  obtain ⟨ho, history, hrest, hexchanges⟩ := h w w (World.sameButNotes_equivalence.refl w)
  exact ⟨ho, hexchanges.symm, by rw [hrest]⟩

/-! ## Waits -/

namespace Cluster

/-- The waits that take a sink, with names that are texts. -/
inductive Reported (τ : Type) where
  | deployment (ns name : String)
  | namespaceAbsent (name : String)
  | definition (name : String) (establishedTimeout : Option (Seconds τ))

namespace Reported

/-- What the sink is told that is waited for. -/
def message : Reported τ → String
  | .deployment ns name => "Waiting for deployment " ++ name ++ " in " ++ ns ++ " to be ready"
  | .namespaceAbsent name => "Waiting for namespace " ++ name ++ " to be deleted"
  | .definition name _ => "Waiting for CRD " ++ name ++ " to be ready to use"

variable [Time τ]

def await (a : Reported τ) (c : Cluster τ) (l : Limits τ) (sink : Option (Sink τ)) : Op τ Unit :=
  match a with
  | .deployment ns name => c.awaitDeployment ns name l sink
  | .namespaceAbsent name => c.awaitNamespaceAbsent name l sink
  | .definition name establishedTimeout => c.awaitDefinition name establishedTimeout l sink

/-- Each of the waits does the same work under every sink, and reports nothing itself. -/
theorem exists_work (a : Reported τ) (c : Cluster τ) (l : Limits τ) :
    ∃ work, c.connection.Steps Event.IsLog work ∧ ∀ sink, a.await c l sink = withProgress sink a.message work := by
  have hwait {k : Condition τ} (hk : k.Built c.connection) (message : String) :
      ∃ work : Op τ Unit, c.connection.Steps Event.IsLog work ∧ ∀ sink,
        (c.wait (.valid k) l sink message >>= fun _ => pure ()) = withProgress sink message work :=
    ⟨_, (hk.steps_poll c.interval (c.timeoutOf l.timeout) l.cancel).bind fun _ => steps_pure (),
      fun sink => withProgress_map sink message _ fun _ => ()⟩
  cases a with
  | deployment ns name => exact hwait (.reports .deployment ["Available"] _ (ns : Value) (name : Value) rfl) _
  | namespaceAbsent name => exact hwait (.namespaceAbsent (name : Value) rfl) _
  | definition name establishedTimeout =>
      have hrun := (DefinitionWait.start c.connection name c.interval).steps_run
        (c.timeoutOf l.timeout) establishedTimeout l.cancel
      exact ⟨_, hrun.bind fun o => .ofExcept o.1, fun _ => rfl⟩

end Reported

end Cluster

/-! ## Removals -/

variable [Time τ] {s t : Sink τ}

theorem Linkerd.twins_delete (hs : s.Polite) (ht : t.Polite) (d : Linkerd τ) (c : Cluster τ) :
    Twins World.SameButNotes ({ d with sink := s }.delete c) ({ d with sink := t }.delete c) := by
  have hsame {α : Type} {x : Op τ α} (h : c.connection.Steps Event.IsNote x) : Twins World.SameButNotes x x :=
    h.twins blind_sameButNotes
  have hlog (level : Level) (message : String) : Twins World.SameButNotes (log level message) (log level message) :=
    hsame (steps_note_log level message)
  obtain ⟨work, hwork, hawait⟩ := (Cluster.Reported.namespaceAbsent id).exists_work c d.limits
  have hs' : ∀ s' ∈ some s, s'.Polite := fun _ h => Option.some.inj h ▸ hs
  have ht' : ∀ t' ∈ some t, t'.Polite := fun _ h => Option.some.inj h ▸ ht
  have hwait : Twins World.SameButNotes (c.awaitNamespaceAbsent id d.limits (some s))
      (c.awaitNamespaceAbsent id d.limits (some t)) := by
    have htwins := twins_withProgress hs' ht' (Cluster.Reported.namespaceAbsent (τ := τ) id).message hwork
    rwa [← hawait, ← hawait] at htwins
  have hstep (what : String) : Twins World.SameButNotes
      (step what (c.awaitNamespaceAbsent id d.limits (some s)))
      (step what (c.awaitNamespaceAbsent id d.limits (some t))) :=
    hwait.onFailure fun e => by
      split
      · exact twins_fail _
      · exact twins_fail e
  refine (hlog _ _).bind fun _ => (hsame (c.steps_namespaceManaged id)).bind fun managed => ?_
  cases managed with
  | false => exact hlog _ _
  | true =>
      exact (hsame (c.steps_createBody .job "create job" d.uninstallNs (.manifest d.uninstallJob))).bind fun _ =>
        (hstep _).bind fun _ => (hsame (c.steps_deleteManifests d.uninstallNs d.roles)).bind fun _ => hlog _ _

/-- A sink whose failures are no interrupts only observes. Under it a wait ends as it would under any other such
sink or under none, and its reports stand around the wait; a removal ends as it would under another such sink. -/
theorem sinks_only_observe (hs : s.Polite) (ht : t.Polite) (w : World τ) :
    (∀ (a : Cluster.Reported τ) (c : Cluster τ) (l : Cluster.Limits τ),
      SameEffect (a.await c l (some s) w) (a.await c l (some t) w) ∧
      SameEffect (a.await c l (some s) w) (a.await c l none w) ∧
      s.Brackets a.message w (a.await c l (some s) w)) ∧
    ∀ (d : Linkerd τ) (c : Cluster τ),
      SameEffect ({ d with sink := s }.delete c w) ({ d with sink := t }.delete c w) := by
  have hpolite {s : Sink τ} (hs : s.Polite) : ∀ s' ∈ some s, s'.Polite := fun _ h => Option.some.inj h ▸ hs
  refine ⟨fun a c l => ?_, fun d c => (Linkerd.twins_delete hs ht d c).sameEffect w⟩
  obtain ⟨work, hwork, hawait⟩ := a.exists_work c l
  rw [hawait, hawait, hawait]
  refine ⟨?_, ?_, Sink.brackets_around hs a.message hwork w⟩
  · exact (twins_withProgress (hpolite hs) (hpolite ht) a.message hwork).sameEffect w
  · exact (twins_withProgress (hpolite hs) (fun _ h => by cases h) a.message hwork).sameEffect w

/-- A sink that refuses every report on a namespace that is deleted meanwhile. -/
theorem sinks_only_observe_of_refusing :
    let s : Sink Rat := .relay fun _ => some (.runtime "sink closed")
    let t : Sink Rat := .relay fun _ => none
    let wait := (Cluster.Reported.namespaceAbsent Linkerd.id).await Cluster.watchful {}
    s.Polite ∧ t.Polite ∧
      SameEffect (wait (some s) Linkerd.clearing) (wait none Linkerd.clearing) ∧
      (wait (some s) Linkerd.clearing).2.progress =
        [(.start, "Waiting for namespace linkerd to be deleted"),
          (.success, "Waiting for namespace linkerd to be deleted")] ∧
      SameEffect ({ Linkerd.oneRole with sink := s }.delete Cluster.watchful Linkerd.clearing)
        ({ Linkerd.oneRole with sink := t }.delete Cluster.watchful Linkerd.clearing) := by
  intro s t wait
  have hs : s.Polite := by
    rintro e ⟨he, stage, hrefuses⟩
    rw [← Option.some.inj hrefuses] at he
    cases he
  have ht : t.Polite := by
    rintro e ⟨_, stage, hrefuses⟩
    cases hrefuses
  obtain ⟨hwait, hdelete⟩ := sinks_only_observe hs ht Linkerd.clearing
  obtain ⟨_, hnone, _⟩ := hwait (.namespaceAbsent Linkerd.id) Cluster.watchful {}
  exact ⟨hs, ht, hnone, by decide +kernel, hdelete Linkerd.oneRole Cluster.watchful⟩

end ClusterControl
