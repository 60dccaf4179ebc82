import ClusterControl.Platform.Detection
import ClusterControl.Proofs.Connection.PrimitiveSteps
import ClusterControl.Proofs.Connection.Unused

/-!
# The steps of all work

Each operation of a cluster, each wait, each run of the mesh and the detection of a platform is taken apart into
steps through the connection.
-/

namespace ClusterControl

variable {τ α β : Type} [Time τ] {P : Event τ → Prop}

open Op Connection

/-! ## Connections -/

namespace Connection

theorem steps_access (c : Connection) (label : String) : c.Steps P (c.access label : Op τ Group) := by
  unfold access
  split
  · exact steps_fail _
  · exact .bind (.require _) fun _ => steps_pure _

end Connection

/-! ## Cluster operations -/

namespace Cluster

theorem steps_target (c : Connection) (default m : Value) :
    c.Steps P (target default m : Op τ Target) :=
  .bind (.ofExcept _) fun _ => (steps_look _).bind fun _ => (steps_look _).bind fun _ => steps_pure _

variable (c : Cluster τ)

theorem steps_refuse (operation : String) (target : Value) (r : Rejection) :
    c.connection.Steps P (refuse operation target r : Op τ α) :=
  steps_fail _

theorem steps_namespaceExists (name : Value) : c.connection.Steps P (c.namespaceExists name) :=
  (Resource.steps_get c.connection .namespaceKind .null name).bind fun found => steps_pure found.isSome

theorem steps_namespaceManaged (name : Value) : c.connection.Steps P (c.namespaceManaged name) := by
  refine (Resource.steps_get c.connection .namespaceKind .null name).bind fun found => ?_
  cases found with
  | none => exact steps_pure false
  | some ns => exact steps_look (isManaged ns)

theorem steps_createNamespace (name labels annotations : Value) :
    c.connection.Steps P (c.createNamespace name labels annotations) :=
  (Resource.steps_create c.connection .namespaceKind .null _).onRejection (c.steps_refuse _ name)

theorem steps_existing (k : Kind) (ns name : Value) : c.connection.Steps P (c.existing k ns name) := by
  refine (Resource.steps_get c.connection k ns name).bind fun found => ?_
  cases found with
  | none => exact steps_fail _
  | some object => exact steps_pure object

theorem steps_createBody (k : Kind) (operation : String) (ns : Value) (body : Body) :
    c.connection.Steps P (c.createBody k operation ns body) :=
  (Resource.steps_create c.connection k ns body.value).onRejection fun r =>
    (steps_look body.name).bind fun name => c.steps_refuse operation name r

theorem steps_deleteSecret (ns name : Value) : c.connection.Steps P (c.deleteSecret ns name) := by
  refine ((Resource.steps_delete c.connection .secret ns name .null).onRejection
    (c.steps_refuse _ name)).bind fun deleted => ?_
  cases deleted with
  | true => exact steps_pure ()
  | false => exact steps_fail _

theorem steps_deleteJob (ns name : Value) : c.connection.Steps P (c.deleteJob ns name) :=
  (Resource.steps_delete c.connection .job ns name "Background").onRejection (c.steps_refuse _ name)

theorem steps_jobFailed (ns name : Value) : c.connection.Steps Event.IsLog (c.jobFailed ns name) := by
  unfold jobFailed
  cases hk : (Condition.jobFailed c.connection ns name : Checked (Condition τ)) with
  | invalid issues => exact steps_fail (.invalid issues)
  | valid k =>
      exact (Condition.Built.steps (.reports _ _ _ ns name hk)).bind fun v => steps_pure v.isSome

theorem steps_applyManifest (default m : Value) : c.connection.Steps P (c.applyManifest default m) := by
  refine (steps_target c.connection default m).bind fun t => Steps.onRejection ?_ fun r => ?_
  · exact (Resource.steps_create c.connection t.kind t.ns m).bind fun _ => steps_pure ()
  · split
    · exact steps_pure ()
    · exact c.steps_refuse _ t.name r

theorem steps_deleteManifest (default m : Value) : c.connection.Steps P (c.deleteManifest default m) :=
  (steps_target c.connection default m).bind fun t =>
    ((Resource.steps_delete c.connection t.kind t.ns t.name .null).bind fun _ => steps_pure ()).onRejection
      (c.steps_refuse _ t.name)

theorem steps_applyManifests (default : Value) (ms : List Value) :
    c.connection.Steps P (c.applyManifests default ms) := by
  induction ms with
  | nil => exact steps_pure ()
  | cons m ms ih => exact (c.steps_applyManifest default m).bind fun _ => ih

theorem steps_deleteManifests (default : Value) (ms : List Value) :
    c.connection.Steps P (c.deleteManifests default ms) := by
  induction ms with
  | nil => exact steps_pure ()
  | cons m ms ih => exact (c.steps_deleteManifest default m).bind fun _ => ih

variable {c}

theorem Operation.steps {x : Op τ α} (h : c.Operation x) : c.connection.Steps Event.IsLog x := by
  cases h with
  | namespaceExists name => exact c.steps_namespaceExists name
  | namespaceManaged name => exact c.steps_namespaceManaged name
  | createNamespace name labels annotations => exact c.steps_createNamespace name labels annotations
  | secret ns name => exact c.steps_existing .secret ns name
  | configMap ns name => exact c.steps_existing .configMap ns name
  | createSecret ns body => exact c.steps_createBody .secret "create secret" ns body
  | createLabeledSecret ns name data labels => exact c.steps_createBody .secret "create secret" ns _
  | deleteSecret ns name => exact c.steps_deleteSecret ns name
  | pods ns selector => exact Resource.steps_list c.connection .pod ns selector
  | jobs ns selector => exact Resource.steps_list c.connection .job ns selector
  | ingresses ns selector => exact Resource.steps_list c.connection .ingress ns selector
  | createJob ns body => exact c.steps_createBody .job "create job" ns body
  | deleteJob ns name => exact c.steps_deleteJob ns name
  | jobFailed ns name => exact c.steps_jobFailed ns name
  | applyManifests default ms => exact c.steps_applyManifests default ms
  | deleteManifests default ms => exact c.steps_deleteManifests default ms
  | version => exact c.connection.steps_version.onRejection fun r => steps_fail _
  | close => exact .close

/-! ## Waits of a cluster -/

variable (c)

theorem steps_wait {k : Checked (Condition τ)} (hk : ∀ k', k = .valid k' → k'.Built c.connection) (l : Limits τ)
    (sink : Option (Sink τ)) (message : String) :
    c.connection.Steps Event.IsNote (c.wait k l sink message) := by
  cases k with
  | invalid issues => exact steps_fail (.invalid issues)
  | valid k =>
      exact steps_withProgress sink message (((hk k rfl).steps_poll _ _ _).mono fun _ h => h.isNote)

theorem steps_awaitDefinition (name : Value) (establishedTimeout : Option (Seconds τ)) (l : Limits τ)
    (sink : Option (Sink τ)) :
    c.connection.Steps Event.IsNote (c.awaitDefinition name establishedTimeout l sink) := by
  have hwait := (DefinitionWait.start c.connection name c.interval).steps_wait
    (c.timeoutOf l.timeout) establishedTimeout l.cancel
  exact steps_withProgress sink _ (hwait.mono fun _ h => h.isNote)

theorem steps_await (l : Limits τ) (a : Await τ) : c.connection.Steps Event.IsNote (c.await l a) := by
  obtain ⟨name, establishedTimeout, sink, rfl⟩ | ⟨message, heq⟩ := c.await_cases l a
  · exact (c.steps_awaitDefinition name establishedTimeout l sink).bind fun _ => steps_pure _
  · rw [heq]
    exact (c.steps_wait (fun _ hk => Await.built hk) l a.sink message).bind fun v => steps_pure (a.result v)

end Cluster

/-! ## Runs of the mesh -/

namespace Linkerd

variable (d : Linkerd τ) (c : Cluster τ)

theorem steps_step {x : Op τ α} (what : String) (hx : c.connection.Steps P x) :
    c.connection.Steps P (step what x) :=
  hx.onCluster fun _ => steps_fail _

theorem steps_namespace : c.connection.Steps P (createNamespace c) := by
  refine (c.steps_namespaceExists id).bind fun found => ?_
  split
  · exact steps_pure ()
  · exact (c.steps_createNamespace id _ _).bind fun _ => steps_pure ()

theorem steps_awaitDone (job : Value) :
    c.connection.Steps Event.IsNote (c.awaitJobDone id job d.limits) :=
  (c.steps_wait (fun _ hk => .reports _ _ _ id job hk) d.limits none "").bind fun _ => steps_pure ()

theorem steps_awaitAbsent (sink : Option (Sink τ)) :
    c.connection.Steps Event.IsNote (c.awaitNamespaceAbsent id d.limits sink) :=
  (c.steps_wait (fun _ hk => .namespaceAbsent id hk) d.limits sink _).bind fun _ => steps_pure ()

theorem steps_install : c.connection.Steps Event.IsNote (d.install c) := by
  refine (steps_namespace c).bind fun _ => (c.steps_applyManifests d.uninstallNs d.roles).bind fun _ =>
    (steps_look (Manifest.name d.installJob)).bind fun job => (c.steps_deleteJob id job).bind fun _ =>
    (c.steps_createBody .job "create job" id (.manifest d.installJob)).bind fun _ =>
    (steps_step c _ (d.steps_awaitDone c job)).bind fun _ =>
    ((c.steps_jobFailed id job).mono fun _ h => h.isNote).bind fun failed => ?_
  cases failed with
  | true => exact steps_fail _
  | false => exact steps_note_log _ _

theorem steps_delete : c.connection.Steps Event.IsNote (d.delete c) := by
  refine (steps_note_log _ _).bind fun _ => (c.steps_namespaceManaged id).bind fun managed => ?_
  cases managed with
  | true =>
      exact (c.steps_createBody .job "create job" d.uninstallNs (.manifest d.uninstallJob)).bind fun _ =>
        (steps_step c _ (d.steps_awaitAbsent c (some d.sink))).bind fun _ =>
        (c.steps_deleteManifests d.uninstallNs d.roles).bind fun _ => steps_note_log _ _
  | false => exact steps_note_log _ _

theorem steps_perform (a : Action) : c.connection.Steps Event.IsNote (d.perform c a) := by
  have hinstall : c.connection.Steps Event.IsNote (d.install c) := d.steps_install c
  cases a with
  | deploy skip =>
      cases skip with
      | true => exact steps_note_log _ _
      | false =>
          refine (c.steps_namespaceExists id).bind fun found => ?_
          cases found with
          | true => exact steps_fail _
          | false => exact (steps_note_log _ _).bind fun _ => hinstall
  | upgrade =>
      refine (c.steps_namespaceExists id).bind fun found => ?_
      cases found with
      | true => exact (steps_note_log _ _).bind fun _ => hinstall
      | false => exact steps_fail _
  | delete => exact d.steps_delete c

end Linkerd

/-! ## Detection -/

namespace Strategy

/-- Both uses of a strategy are made of steps. -/
structure Stepwise (s : Strategy τ) (c : Connection) : Prop where
  detect : c.Steps Event.IsNote (s.detect c)
  load : c.Steps Event.IsNote (s.load c)

theorem steps_nodes (c : Connection) : c.Steps P (Node.all c : Op τ (List Value)) :=
  (Resource.steps_list c .node .null .null).bind fun v => steps_look v.items

theorem steps_nodeIps (type : String) (c : Connection) : c.Steps P (nodeIps type c : Op τ (List Value)) :=
  (steps_nodes c).bind fun nodes => steps_look (Node.addresses nodes type)

theorem steps_someNode (passes : Value → Except Malformed Bool) (c : Connection) :
    c.Steps P (someNode passes c : Op τ Bool) :=
  (steps_nodes c).bind fun nodes => steps_look (nodes.anyM passes)

theorem stepwise_ofProbe {c : Connection} (name description : String)
    {externalIps : Connection → Op τ (List Value)} {detect : Connection → Op τ Bool}
    (hi : c.Steps Event.IsNote (externalIps c)) (hd : c.Steps Event.IsNote (detect c)) :
    (ofProbe name description externalIps detect).Stepwise c where
  detect := hd
  load := hi.bind fun _ => .ofExcept _

theorem stepwise_generic (c : Connection) : (generic : Strategy τ).Stepwise c :=
  stepwise_ofProbe _ _ (steps_pure []) (steps_pure true)

theorem stepwise_known (c : Connection) : ∀ s ∈ (known : List (Strategy τ)), s.Stepwise c := by
  intro s hs
  simp only [known, List.mem_cons, List.not_mem_nil, or_false] at hs
  rcases hs with rfl | rfl | rfl | rfl
  · exact stepwise_ofProbe _ _ (steps_nodeIps _ c) (steps_someNode _ c)
  · exact stepwise_ofProbe _ _ (steps_nodeIps _ c) (steps_someNode _ c)
  · exact stepwise_ofProbe _ _ (steps_nodeIps _ c)
      ((Resource.steps_get c .namespaceKind .null "ibm-system").bind fun found => steps_pure found.isSome)
  · exact stepwise_ofProbe _ _ (steps_nodeIps _ c) (steps_someNode _ c)

end Strategy

namespace Platform

/-- The strategy that is selected is one of those that are tried, or the one for any cluster. -/
theorem steps_select_bind {c : Connection} {strategies : List (Strategy τ)} {f : Strategy τ → Op τ β}
    (h : ∀ s ∈ strategies, s.Stepwise c) (hf : ∀ s, s.Stepwise c → c.Steps Event.IsNote (f s)) :
    c.Steps Event.IsNote (select c strategies >>= f) := by
  induction strategies with
  | nil =>
      rw [select, bind_assoc]
      exact (steps_note_log _ _).bind fun _ => hf .generic (Strategy.stepwise_generic c)
  | cons s rest ih =>
      rw [select, bind_assoc]
      refine ((h s List.mem_cons_self).detect.onNotFound (steps_pure false)).bind fun found => ?_
      cases found with
      | true => exact hf s (h s List.mem_cons_self)
      | false => exact ih fun t ht => h t (List.mem_cons_of_mem s ht)

theorem steps_detect {c : Connection} {strategies : List (Strategy τ)}
    (h : ∀ s ∈ strategies, s.Stepwise c) : c.Steps Event.IsNote (detect c strategies) :=
  steps_select_bind h fun _ hs =>
    hs.load.bind fun p => (steps_note_log _ _).bind fun _ => steps_pure p

end Platform

/-! ## All work -/

theorem Connection.Works.steps {c : Connection} {x : Op τ α} (h : c.Works x) : c.Steps Event.IsNote x := by
  induction h with
  | access label => exact c.steps_access label
  | version => exact c.steps_version
  | close => exact .close
  | get k ns name => exact Resource.steps_get c k ns name
  | list k ns selector => exact Resource.steps_list c k ns selector
  | create k ns body => exact Resource.steps_create c k ns body
  | delete k ns name policy => exact Resource.steps_delete c k ns name policy
  | getCustom r ns name hc => exact hc ▸ r.steps_get ns name
  | listCustom r ns selector hc => exact hc ▸ r.steps_list ns selector
  | createCustom r ns body hc => exact hc ▸ r.steps_create ns body
  | deleteCustom r ns name hc => exact hc ▸ r.steps_delete ns name
  | operation h hc hx => exact hc ▸ hx.steps.mono fun _ h => h.isNote
  | await h l a hc => exact hc ▸ h.steps_await l a
  | check k hk =>
      refine (hk.steps.mono fun _ h => h.isNote).bind fun found => ?_
      cases found with
      | none => exact steps_pure _
      | some v => exact steps_pure _
  | poll k interval timeout cancel hk =>
      exact ((hk.steps_poll interval timeout cancel).mono fun _ h => h.isNote).bind fun v => steps_pure _
  | definition d timeout establishedTimeout cancel hc =>
      exact hc ▸ (d.steps_run timeout establishedTimeout cancel).mono fun _ h => h.isNote
  | mesh d h a hc => exact hc ▸ d.steps_perform h a
  | pure a => exact steps_pure a
  | bind _ _ hx hf => exact hx.bind hf
  | onFailure _ _ hx hh => exact hx.onFailure hh

end ClusterControl
