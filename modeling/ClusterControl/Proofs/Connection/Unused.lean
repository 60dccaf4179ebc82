import ClusterControl.Proofs.Cluster.Awaits
import ClusterControl.Proofs.Mesh.Runs

/-!
# No use after closing

Whatever is done with a connection that was closed, no request is sent and no time passes. Work of several steps
is work too, with failures handled on the way: the induction is on the steps, and what carries it is that the
connection stays closed.
-/

namespace ClusterControl

variable {τ : Type} [Time τ]

/-! ## Work through a connection -/

/-- What a handle on a cluster offers besides the waits. -/
inductive Cluster.Operation (c : Cluster τ) : {α : Type} → Op τ α → Prop where
  | namespaceExists (name : Value) : c.Operation (c.namespaceExists name)
  | namespaceManaged (name : Value) : c.Operation (c.namespaceManaged name)
  | createNamespace (name labels annotations : Value) :
      c.Operation (c.createNamespace name labels annotations)
  | secret (ns name : Value) : c.Operation (c.secret ns name)
  | configMap (ns name : Value) : c.Operation (c.configMap ns name)
  | createSecret (ns : Value) (body : Body) : c.Operation (c.createSecret ns body)
  | createLabeledSecret (ns name data labels : Value) :
      c.Operation (c.createLabeledSecret ns name data labels)
  | deleteSecret (ns name : Value) : c.Operation (c.deleteSecret ns name)
  | pods (ns selector : Value) : c.Operation (c.pods ns selector)
  | jobs (ns selector : Value) : c.Operation (c.jobs ns selector)
  | ingresses (ns selector : Value) : c.Operation (c.ingresses ns selector)
  | createJob (ns : Value) (body : Body) : c.Operation (c.createJob ns body)
  | deleteJob (ns name : Value) : c.Operation (c.deleteJob ns name)
  | jobFailed (ns name : Value) : c.Operation (c.jobFailed ns name)
  | applyManifests (default : Value) (ms : List Value) : c.Operation (c.applyManifests default ms)
  | deleteManifests (default : Value) (ms : List Value) : c.Operation (c.deleteManifests default ms)
  | version : c.Operation c.version
  | close : c.Operation c.close

/-- Everything that is done with resources through a connection, one thing after another. -/
inductive Connection.Works (c : Connection) : {α : Type} → Op τ α → Prop where
  | access (label : String) : c.Works (c.access label)
  | version : c.Works c.version
  | close : c.Works c.close
  | get (k : Kind) (ns name : Value) : c.Works (Resource.get c k ns name)
  | list (k : Kind) (ns selector : Value) : c.Works (Resource.list c k ns selector)
  | create (k : Kind) (ns body : Value) : c.Works (Resource.create c k ns body)
  | delete (k : Kind) (ns name policy : Value) : c.Works (Resource.delete c k ns name policy)
  | getCustom (r : CustomResource) (ns name : Value) : r.connection = c → c.Works (r.get ns name)
  | listCustom (r : CustomResource) (ns selector : Value) : r.connection = c → c.Works (r.list ns selector)
  | createCustom (r : CustomResource) (ns body : Value) : r.connection = c → c.Works (r.create ns body)
  | deleteCustom (r : CustomResource) (ns name : Value) : r.connection = c → c.Works (r.delete ns name)
  | operation {α : Type} {x : Op τ α} (h : Cluster τ) : h.connection = c → h.Operation x → c.Works x
  | await (h : Cluster τ) (l : Cluster.Limits τ) (a : Cluster.Await τ) :
      h.connection = c → c.Works (h.await l a)
  | check (k : Watch τ) : k.condition.Built c → c.Works k.check
  | poll (k : Watch τ) (interval timeout : Seconds τ) (cancel : Option τ) :
      k.condition.Built c → c.Works (k.poll interval timeout cancel)
  | definition (d : DefinitionWait τ) (timeout : Seconds τ) (establishedTimeout : Option (Seconds τ))
      (cancel : Option τ) : d.connection = c → c.Works (d.run timeout establishedTimeout cancel)
  | mesh (d : Linkerd τ) (h : Cluster τ) (a : Linkerd.Action) : h.connection = c → c.Works (d.perform h a)
  | pure {α : Type} (a : α) : c.Works (pure a)
  | bind {α β : Type} {x : Op τ α} {f : α → Op τ β} :
      c.Works x → (∀ a, c.Works (f a)) → c.Works (x >>= f)
  | onFailure {α : Type} {x : Op τ α} {handle : Failure τ → Op τ α} :
      c.Works x → (∀ e, c.Works (handle e)) → c.Works (x.onFailure handle)

open Op

/-! ## Cluster operations -/

namespace Cluster

variable (c : Cluster τ)

theorem refused_existing (k : Kind) (ns name : Value) : (c.existing k ns name).Refused c.connection k.group :=
  (Resource.refused_get c.connection k ns name).bind _

theorem refused_createBody (k : Kind) (operation : String) (ns : Value) (body : Body) :
    (c.createBody k operation ns body).Refused c.connection k.group :=
  (Resource.refused_create c.connection k ns body.value).onRejection _

theorem refused_namespaceExists (name : Value) : (c.namespaceExists name).Refused c.connection .core :=
  (Resource.refused_get c.connection .namespaceKind .null name).bind _

theorem refused_namespaceManaged (name : Value) : (c.namespaceManaged name).Refused c.connection .core :=
  (Resource.refused_get c.connection .namespaceKind .null name).bind _

theorem idle_jobFailed (ns name : Value) : (c.jobFailed ns name).Idle c.connection := by
  unfold jobFailed
  cases hk : (Condition.jobFailed c.connection ns name : Checked (Condition τ)) with
  | invalid issues => exact idle_fail (.invalid issues)
  | valid k => exact ((Condition.refused_reports hk).bind _).idle

omit [Time τ] c in
theorem idle_target (c : Connection) (default m : Value) : (target default m : Op τ Target).Idle c :=
  (idle_ofExcept _).bind fun _ => (idle_ofExcept _).bind fun _ => (idle_ofExcept _).bind fun _ => idle_pure _

/-- No manifest is needed to know that none can be applied, but a bad one is found out first. -/
theorem idle_applyManifests (default : Value) (ms : List Value) :
    (c.applyManifests default ms).Idle c.connection := by
  induction ms with
  | nil => exact idle_pure ()
  | cons m ms ih =>
      refine Idle.bind ((idle_target c.connection default m).bind fun t => ?_) fun _ => ih
      exact (((Resource.refused_create c.connection t.kind t.ns m).bind _).onRejection _).idle

theorem idle_deleteManifests (default : Value) (ms : List Value) :
    (c.deleteManifests default ms).Idle c.connection := by
  induction ms with
  | nil => exact idle_pure ()
  | cons m ms ih =>
      refine Idle.bind ((idle_target c.connection default m).bind fun t => ?_) fun _ => ih
      exact (((Resource.refused_delete c.connection t.kind t.ns t.name .null).bind _).onRejection _).idle

variable {c}

theorem Operation.idle {α : Type} {x : Op τ α} (h : c.Operation x) : x.Idle c.connection := by
  cases h with
  | namespaceExists name => exact (c.refused_namespaceExists name).idle
  | namespaceManaged name => exact (c.refused_namespaceManaged name).idle
  | createNamespace name labels annotations =>
      exact ((Resource.refused_create c.connection .namespaceKind .null _).onRejection _).idle
  | secret ns name => exact (c.refused_existing .secret ns name).idle
  | configMap ns name => exact (c.refused_existing .configMap ns name).idle
  | createSecret ns body => exact (c.refused_createBody .secret "create secret" ns body).idle
  | createLabeledSecret ns name data labels => exact (c.refused_createBody .secret "create secret" ns _).idle
  | deleteSecret ns name =>
      exact (((Resource.refused_delete c.connection .secret ns name .null).onRejection _).bind _).idle
  | pods ns selector => exact (Resource.refused_list c.connection .pod ns selector).idle
  | jobs ns selector => exact (Resource.refused_list c.connection .job ns selector).idle
  | ingresses ns selector => exact (Resource.refused_list c.connection .ingress ns selector).idle
  | createJob ns body => exact (c.refused_createBody .job "create job" ns body).idle
  | deleteJob ns name =>
      exact ((Resource.refused_delete c.connection .job ns name "Background").onRejection _).idle
  | jobFailed ns name => exact c.idle_jobFailed ns name
  | applyManifests default ms => exact c.idle_applyManifests default ms
  | deleteManifests default ms => exact c.idle_deleteManifests default ms
  | version => exact (c.connection.refused_version.onRejection _).idle
  | close => exact c.connection.idle_close

end Cluster

/-! ## Runs of the mesh -/

theorem Linkerd.idle_perform (d : Linkerd τ) (c : Cluster τ) (a : Linkerd.Action) :
    (d.perform c a).Idle c.connection := by
  cases a with
  | deploy skip =>
      cases skip with
      | true => exact idle_log _ _
      | false => exact ((c.refused_namespaceExists id).bind _).idle
  | upgrade => exact ((c.refused_namespaceExists id).bind _).idle
  | delete => exact (idle_log _ _).bind fun _ => ((c.refused_namespaceManaged id).bind _).idle

/-! ## All work -/

namespace Connection

variable {c : Connection}

theorem Works.idle {α : Type} {x : Op τ α} (h : c.Works x) : x.Idle c := by
  induction h with
  | access label => exact c.idle_access label
  | version => exact c.refused_version.idle
  | close => exact c.idle_close
  | get k ns name => exact (Resource.refused_get c k ns name).idle
  | list k ns selector => exact (Resource.refused_list c k ns selector).idle
  | create k ns body => exact (Resource.refused_create c k ns body).idle
  | delete k ns name policy => exact (Resource.refused_delete c k ns name policy).idle
  | getCustom r ns name hc => exact hc ▸ (r.refused_get ns name).idle
  | listCustom r ns selector hc => exact hc ▸ (r.refused_list ns selector).idle
  | createCustom r ns body hc => exact hc ▸ (r.refused_create ns body).idle
  | deleteCustom r ns name hc => exact hc ▸ (r.refused_delete ns name).idle
  | operation h hc hx => exact hc ▸ hx.idle
  | await h l a hc =>
      intro w hw
      have hserves : h.connection.serves a.question w = false := hc ▸ has_of_isClosed hw a.question.endpoint.group
      obtain ⟨f, v, hrun, hv, _⟩ := Cluster.await_refused hserves l
      rw [hrun]
      exact hv.resting
  | check k hk => exact Watch.idle_check hk
  | poll k interval timeout cancel hk =>
      intro w hw
      rw [Watch.poll_closed hk hw]
      exact .refl w
  | definition d timeout establishedTimeout cancel hc =>
      intro w hw
      rw [d.run_refused (hc ▸ has_of_isClosed hw .definitions)]
      exact .refl w
  | mesh d h a hc => exact hc ▸ d.idle_perform h a
  | pure a => exact idle_pure a
  | bind _ _ hx hf => exact hx.bind hf
  | onFailure _ _ hx hh => exact hx.onFailure hh

/-- After a connection was closed, no work through it sends a request or lets time pass, and it stays closed. A
wait ends at once with its refusal, unless its sink breaks it off: it is rejected, or was cancelled, or fails
as the connection is closed. -/
theorem unused_once_closed {w : World τ} (hclosed : c.isClosed w = true) :
    (∀ {α : Type} {x : Op τ α}, c.Works x →
      (x w).2.requests = w.requests ∧ (x w).2.now = w.now ∧ c.isClosed (x w).2 = true) ∧
    (∀ (h : Cluster τ) (l : Cluster.Limits τ) (a : Cluster.Await τ), h.connection = c →
      ∃ e, (h.await l a w).1 = .error e ∧ (e = a.refusal h l w ∨ ∃ s ∈ a.sink, s.Breaks e)) ∧
    (∀ (k : Watch τ) (interval timeout : Seconds τ) (cancel : Option τ), k.condition.Built c →
      (k.poll interval timeout cancel w).1 =
        .error (Poll.refusal ⟨k.condition.description, interval, timeout, cancel⟩ w)) ∧
    ∀ (d : DefinitionWait τ) (timeout : Seconds τ) (establishedTimeout : Option (Seconds τ))
      (cancel : Option τ), d.connection = c →
        (d.run timeout establishedTimeout cancel w).1 = .ok (.error (d.refusal timeout cancel w), d) := by
  refine ⟨fun hx => ?_, fun h l a hc => ?_, fun k interval timeout cancel hk => ?_,
    fun d timeout establishedTimeout cancel hc => ?_⟩
  · have hresting := hx.idle w hclosed
    exact ⟨hresting.requests, hresting.now, (isClosed_congr hresting.apis c).trans hclosed⟩
  · have hserves : h.connection.serves a.question w = false := hc ▸ has_of_isClosed hclosed a.question.endpoint.group
    obtain ⟨e, v, hrun, _, he⟩ := Cluster.await_refused hserves l
    exact ⟨e, by rw [hrun], he⟩
  · rw [Watch.poll_closed hk hclosed]
  · rw [d.run_refused (hc ▸ has_of_isClosed hclosed .definitions)]

/-- A wait for a secret through a connection that was closed. -/
theorem unused_once_closed_of_close :
    let c : Connection := ⟨0, {}⟩
    let w := (c.close (World.initial [] [] : World Rat).connected).2
    let wait := Cluster.watchful.await {} (.secret "jobs" "token") w
    c.isClosed w = true ∧ wait.1 = .error closed ∧ wait.2.requests = w.requests ∧ wait.2.now = w.now := by
  intro c w wait
  have hclosed : c.isClosed w = true := isClosed_close (eq_ok_of_isOk (by decide +kernel))
  obtain ⟨hwork, hwait, _⟩ := unused_once_closed hclosed
  obtain ⟨e, he, rfl | ⟨s, hs, _⟩⟩ := hwait Cluster.watchful {} (.secret "jobs" "token") rfl
  · obtain ⟨hrequests, hnow, _⟩ := hwork (.await Cluster.watchful {} (.secret "jobs" "token") rfl)
    exact ⟨hclosed, he, hrequests, hnow⟩
  · cases hs

end Connection

end ClusterControl
