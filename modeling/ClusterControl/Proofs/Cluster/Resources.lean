import ClusterControl.Cluster.Manifests
import ClusterControl.Cluster.Waits
import ClusterControl.Proofs.Resource.Services
import ClusterControl.Proofs.Wait.Conditions
import ClusterControl.Proofs.Wait.Reports

/-!
# What cluster operations exchange

Creating and deleting sends one request each, a list of manifests is created or deleted in order, and
waiting only reads.
-/

namespace ClusterControl

variable {τ α : Type}

namespace Cluster

open Op Resource

variable [Time τ]

omit [Time τ] in
theorem emits_refuse (operation : String) (target : Value) (r : Rejection) :
    (refuse operation target r : Op τ α).Emits
      (.silent (.error (.refused operation target r.reason (some (.rejected r))))) :=
  emits_fail _

/-! ## Creations and deletions -/

theorem emits_createNamespace (c : Cluster τ) (name labels annotations : Value) :
    ∃ answer, (c.createNamespace name labels annotations).Emits
      (.asks (createRequest .namespaceKind .null (namespaceBody name labels annotations)) answer) :=
  ⟨_, (emits_create c.connection .namespaceKind .null _).asks_onRejection
    (emits_refuse "create namespace" name)⟩

theorem emits_createBody (c : Cluster τ) (k : Kind) (operation : String) (ns : Value) (body : Body) :
    ∃ answer, (c.createBody k operation ns body).Emits
      (.asks (createRequest k ns body.value) answer) := by
  have hrefuse (r : Rejection) : Emits (do refuse operation (← Op.look body.name) r : Op τ Value)
      (.silent ((body.name.mapError .malformed).bind fun name =>
        .error (.refused operation name r.reason (some (.rejected r))))) := by
    cases body.name with
    | error m => exact emits_fail _
    | ok name => exact emits_refuse operation name r
  exact ⟨_, (emits_create c.connection k ns body.value).asks_onRejection hrefuse⟩

theorem emits_deleteJob (c : Cluster τ) (ns name : Value) :
    ∃ answer, (c.deleteJob ns name).Emits (.asks (deleteRequest .job ns name "Background") answer) :=
  ⟨_, (emits_delete c.connection .job ns name "Background").asks_onRejection
    (emits_refuse "delete job" name)⟩

theorem follows_deleteJob (c : Cluster τ) (ns name : Value) :
    (c.deleteJob ns name).Emits (.follows [deleteRequest .job ns name "Background"]) := by
  obtain ⟨_, h⟩ := c.emits_deleteJob ns name
  exact h.mono fun _ _ => Trace.asks.follows (mutates_deleteRequest _ _ _ _)

omit [Time τ] in
theorem target_eq (default : Value) {m : Value} {s : Service} {metadata : List (String × Value)}
    (hs : Service.of? m = some s) (hm : Manifest.Described m metadata) :
    ∃ k, s.Serves k ∧ (target default m : Op τ Target) =
      pure ⟨k, (metadata.lookup "namespace").getD default, (metadata.lookup "name").getD ""⟩ := by
  obtain ⟨k, hkind, hserves⟩ := Manifest.kind_eq (τ := τ) hs
  refine ⟨k, hserves, ?_⟩
  simp only [target, hkind, Manifest.name_eq_lookup hm.field_eq, hm.ns_eq]
  rfl

theorem emits_createTarget (c : Cluster τ) (t : Target) (m : Value) :
    ∃ answer, (Op.onRejection (do let _ ← Resource.create c.connection t.kind t.ns m) fun r =>
      if r.isConflict then pure () else refuse ("create " ++ t.kind.label) t.name r : Op τ Unit).Emits
        (.asks (createRequest t.kind t.ns m) answer) := by
  have hhandle (r : Rejection) : Emits (if r.isConflict then pure ()
      else refuse ("create " ++ t.kind.label) t.name r : Op τ Unit)
      (.silent (if r.isConflict then .ok () else
        .error (.refused ("create " ++ t.kind.label) t.name r.reason (some (.rejected r))))) := by
    split
    · exact emits_pure ()
    · exact emits_refuse _ _ r
  exact ⟨_, ((emits_create c.connection t.kind t.ns m).asks_bind fun _ => emits_pure ()).asks_onRejection
    hhandle⟩

theorem emits_deleteTarget (c : Cluster τ) (t : Target) :
    ∃ answer, (Op.onRejection (do let _ ← Resource.delete c.connection t.kind t.ns t.name .null)
      (refuse ("delete " ++ t.kind.label) t.name) : Op τ Unit).Emits
        (.asks (deleteRequest t.kind t.ns t.name .null) answer) :=
  ⟨_, ((emits_delete c.connection t.kind t.ns t.name .null).asks_bind fun _ => emits_pure ()).asks_onRejection
    (emits_refuse _ _)⟩

theorem follows_applyManifest (c : Cluster τ) {default m : Value} {r : Request}
    (h : Manifest.Creates default m r) : (c.applyManifest default m).Emits (.follows [r]) := by
  obtain ⟨s, metadata, hs, hm, rfl⟩ := h
  obtain ⟨k, hserves, htarget⟩ := target_eq (τ := τ) default hs hm
  obtain ⟨_, hcreate⟩ := c.emits_createTarget
    ⟨k, (metadata.lookup "namespace").getD default, (metadata.lookup "name").getD ""⟩ m
  rw [applyManifest, htarget, ← hserves.creation_eq]
  exact hcreate.mono fun _ _ => Trace.asks.follows (mutates_createRequest k _ m)

theorem follows_deleteManifest (c : Cluster τ) {default m : Value} {r : Request}
    (h : Manifest.Deletes default m r) : (c.deleteManifest default m).Emits (.follows [r]) := by
  obtain ⟨s, metadata, hs, hm, rfl⟩ := h
  obtain ⟨k, hserves, htarget⟩ := target_eq (τ := τ) default hs hm
  obtain ⟨_, hdelete⟩ := c.emits_deleteTarget
    ⟨k, (metadata.lookup "namespace").getD default, (metadata.lookup "name").getD ""⟩
  rw [deleteManifest, htarget, ← hserves.deletion_eq]
  exact hdelete.mono fun _ _ => Trace.asks.follows (mutates_deleteRequest k _ _ _)

theorem follows_applyManifests (c : Cluster τ) {default : Value} {ms : List Value} {rs : List Request}
    (h : List.Forall₂ (Manifest.Creates default) ms rs) :
    (c.applyManifests default ms).Emits (.follows rs) := by
  induction h with
  | nil => exact (emits_pure ()).mono fun _ _ => Trace.follows_silent
  | cons hm _ ih => exact (c.follows_applyManifest hm).follows_bind fun _ => ih

theorem follows_deleteManifests (c : Cluster τ) {default : Value} {ms : List Value} {rs : List Request}
    (h : List.Forall₂ (Manifest.Deletes default) ms rs) :
    (c.deleteManifests default ms).Emits (.follows rs) := by
  induction h with
  | nil => exact (emits_pure ()).mono fun _ _ => Trace.follows_silent
  | cons hm _ ih => exact (c.follows_deleteManifest hm).follows_bind fun _ => ih

/-! ## Manifests of any shape -/

omit [Time τ] in
/-- A manifest is looked at without asking the cluster, and what it describes is of the kind that it names. -/
theorem emits_target (default m : Value) : (target default m : Op τ Target).Emits fun xs o =>
    xs = [] ∧ ∀ t, o = .ok t → ∃ s, Service.of? m = some s ∧ s.Serves t.kind := by
  refine ((emits_ofExcept (Manifest.kind m)).silent_bind fun k =>
    (emits_ofExcept ((Manifest.name m).mapError .malformed)).silent_bind fun name =>
      (emits_ofExcept ((Manifest.ns m default).mapError .malformed)).silent_bind fun ns =>
        emits_pure (⟨k, ns, name⟩ : Target)).mono ?_
  rintro _ _ ⟨rfl, rfl⟩
  refine ⟨rfl, fun t ht => ?_⟩
  obtain ⟨k, hk, ht⟩ := ok_of_bind_eq_ok ht
  obtain ⟨name, _, ht⟩ := ok_of_bind_eq_ok ht
  obtain ⟨ns, _, ht⟩ := ok_of_bind_eq_ok ht
  obtain rfl := Except.ok.inj ht
  exact Manifest.of?_of_kind hk

theorem only_applyManifest (c : Cluster τ) (default m : Value) :
    (c.applyManifest default m).Emits (.only (Manifest.MayCreate m)) := by
  refine ((emits_target default m).bind fun t => (c.emits_createTarget t m).choose_spec).mono fun xs o h => ?_
  cases h with
  | stopped htarget =>
      obtain rfl := htarget.1
      exact List.forall_mem_nil _
  | onward htarget hcreate =>
      obtain ⟨rfl, hkind⟩ := htarget
      obtain ⟨s, hs, hserves⟩ := hkind _ rfl
      exact hcreate.only ⟨s, _, hs, hserves.creation_eq _ m⟩

theorem only_deleteManifest (c : Cluster τ) (default m : Value) :
    (c.deleteManifest default m).Emits (.only fun r => ∃ k ns name, r = deleteRequest k ns name .null) := by
  refine ((emits_target default m).bind fun t => (c.emits_deleteTarget t).choose_spec).mono fun xs o h => ?_
  cases h with
  | stopped htarget =>
      obtain rfl := htarget.1
      exact List.forall_mem_nil _
  | onward htarget hdelete =>
      obtain rfl := htarget.1
      exact hdelete.only ⟨_, _, _, rfl⟩

theorem only_applyManifests (c : Cluster τ) (default : Value) (ms : List Value) :
    (c.applyManifests default ms).Emits (.only fun r => ∃ m ∈ ms, Manifest.MayCreate m r) := by
  induction ms with
  | nil => exact (emits_pure ()).mono fun _ _ => Trace.only_silent
  | cons m ms ih =>
      refine Emits.only_bind ((c.only_applyManifest default m).mono ?_) fun _ => ih.mono ?_
      · exact fun xs o h x hx => ⟨m, List.mem_cons_self, h x hx⟩
      · intro xs o h x hx
        obtain ⟨m', hm, hr⟩ := h x hx
        exact ⟨m', List.mem_cons_of_mem m hm, hr⟩

theorem only_deleteManifests (c : Cluster τ) (default : Value) (ms : List Value) :
    (c.deleteManifests default ms).Emits (.only fun r => ∃ k ns name, r = deleteRequest k ns name .null) := by
  induction ms with
  | nil => exact (emits_pure ()).mono fun _ _ => Trace.only_silent
  | cons m ms ih => exact Emits.only_bind (c.only_deleteManifest default m) fun _ => ih

/-! ## Namespaces -/

/-- What an answer to a read of a namespace says about its being managed. -/
def managedAnswer (o : Except (Failure τ) Value) : Except (Failure τ) Bool :=
  (found o).bind fun
    | none => .ok false
    | some ns => (isManaged ns).mapError .malformed

omit [Time τ] in
theorem isManaged_eq_ok {ns : Value} {b : Bool} (h : isManaged ns = .ok b) :
    b = true ↔ ((ns.field? "metadata").field? "labels").field? managedByLabel = .str managedByValue := by
  cases hmeta : ns.field "metadata" with
  | error m => simp [isManaged, hmeta, bind, Except.bind] at h
  | ok metadata =>
      cases hlabels : metadata.field "labels" with
      | error m => simp [isManaged, hmeta, hlabels, bind, Except.bind] at h
      | ok labels =>
          rw [Value.field_eq_ok_field? hmeta, Value.field_eq_ok_field? hlabels]
          cases ht : labels.truthy with
          | false =>
              simp only [isManaged, hmeta, hlabels, bind, Except.bind, ht] at h
              obtain rfl : false = b := Except.ok.inj h
              cases labels with
              | obj fields => simp_all [Value.truthy, Value.field?]
              | _ => simp [Value.field?]
          | true =>
              cases hl : labels.field managedByLabel with
              | error m => simp [isManaged, hmeta, hlabels, ht, hl, bind, Except.bind] at h
              | ok label =>
                  simp only [isManaged, hmeta, hlabels, bind, Except.bind, ht, hl] at h
                  obtain rfl : label.same managedByValue = b := Except.ok.inj h
                  rw [Value.field_eq_ok_field? hl, Value.same_str_iff]

theorem emits_namespaceManaged (c : Cluster τ) (name : Value) :
    (c.namespaceManaged name).Emits (.asks (readRequest .namespaceKind .null name) managedAnswer) := by
  apply (emits_get c.connection .namespaceKind .null name).asks_bind
  intro a
  cases a with
  | none => exact emits_pure false
  | some ns => exact emits_ofExcept _

/-- A wait for a namespace to be gone only reads the namespace, and ends well with a read that shows that
it is. -/
theorem emits_awaitNamespaceAbsent (c : Cluster τ) (name : String) (l : Limits τ) (sink : Option (Sink τ)) :
    (c.awaitNamespaceAbsent name l sink).Emits fun xs o =>
      Trace.only (· = readRequest .namespaceKind .null name) xs o ∧
        (o = .ok () → ∃ x ∈ xs, x.absent = true) := by
  obtain ⟨condition, hc, hlook⟩ := Condition.emits_namespaceAbsent (τ := τ) c.connection name
  have hpoll := Poll.emits_run hlook
    ⟨condition.description, c.interval, c.timeoutOf l.timeout, l.cancel⟩
  have hawait : c.awaitNamespaceAbsent name l sink = (do
      let _ ← withProgress sink ("Waiting for namespace " ++ name ++ " to be deleted")
        (condition.poll c.interval (c.timeoutOf l.timeout) l.cancel)) := by
    simp only [awaitNamespaceAbsent, wait, hc]
    rfl
  rw [hawait]
  refine ((emits_withProgress sink _ hpoll).bind_pure fun _ => ()).mono ?_
  rintro xs _ ⟨r, ⟨hreads, hok⟩, rfl⟩
  refine ⟨?_, fun ho => ?_⟩
  · rcases hreads with rfl | ⟨_, ht⟩
    · exact List.forall_mem_nil _
    · exact ht.of_spots.1
  · cases r with
    | error e => cases ho
    | ok a => exact (hok a rfl).of_spots.2 a rfl

/-! ## Waits on a job -/

/-- A wait for a job to end only reads the job, and ends well with a read that shows the end. -/
theorem emits_awaitJobDone (c : Cluster τ) (ns name : String) (l : Limits τ) :
    (c.awaitJobDone ns name l).Emits fun xs o => (∀ x ∈ xs, x.request = readRequest .job ns name) ∧
      (o = .ok () → ∃ x ∈ xs, ∃ v, x.outcome = .ok v ∧ v.Reports ["Failed", "Complete"]) := by
  obtain ⟨condition, hc, hlook⟩ :=
    Condition.emits_reports (τ := τ) c.connection .job ["Failed", "Complete"] "to finish" ns name
  have hwait := Poll.emits_run hlook
    ⟨condition.description, c.interval, c.timeoutOf l.timeout, l.cancel⟩
  have hawait : c.awaitJobDone ns name l = (do
      let _ ← condition.poll c.interval (c.timeoutOf l.timeout) l.cancel) := by
    simp only [awaitJobDone, wait, Condition.jobDone, hc]
    rfl
  rw [hawait]
  refine (hwait.bind_pure fun _ => ()).mono ?_
  rintro xs _ ⟨r, ht, rfl⟩
  refine ⟨ht.of_looks.1, fun ho => ?_⟩
  cases r with
  | error e => cases ho
  | ok a => exact ht.of_looks.2 a rfl

theorem emits_jobFailed (c : Cluster τ) (ns name : String) :
    (c.jobFailed ns name).Emits fun xs o => (∀ x ∈ xs, x.request = readRequest .job ns name) ∧
      ∀ b, o = .ok b → ∃ x v, xs = [x] ∧ x.outcome = .ok v ∧ (b = true ↔ v.Reports ["Failed"]) := by
  obtain ⟨condition, hc, hlook⟩ :=
    Condition.emits_reports (τ := τ) c.connection .job ["Failed"] "to fail" ns name
  have hfailed : c.jobFailed ns name = (do pure (← condition.check).isSome) := by
    simp only [jobFailed, Condition.jobFailed, hc]
    rfl
  rw [hfailed]
  refine (hlook.bind_pure Option.isSome).mono ?_
  rintro xs _ ⟨r, ht, rfl⟩
  refine ⟨ht.1, fun b hb => ?_⟩
  cases r with
  | error e => cases hb
  | ok a =>
      obtain rfl := Except.ok.inj hb
      exact ht.2 a rfl

/-! ## Waits of any sort -/

/-- A wait makes no other requests than its condition does. -/
theorem only_wait (c : Cluster τ) {P : Request → Prop} {condition : Checked (Condition τ)}
    (h : ∀ k, condition = .valid k → k.check.Emits (.only P)) (l : Limits τ) (sink : Option (Sink τ))
    (message : String) : (c.wait condition l sink message).Emits (.only P) := by
  cases condition with
  | invalid issues => exact (emits_fail (.invalid issues)).mono fun _ _ => Trace.only_silent
  | valid k =>
      have hpoll := (Poll.emits_run (h k rfl)
        ⟨k.description, c.interval, c.timeoutOf l.timeout, l.cancel⟩).mono fun _ _ ht => ht.only
      exact (emits_withProgress sink message hpoll).mono fun _ _ ht => ht.only

theorem only_awaitJobDone (c : Cluster τ) (ns name : Value) (l : Limits τ) :
    (c.awaitJobDone ns name l).Emits (.only fun r => r.mutates = false) :=
  (c.only_wait (fun _ hk => Condition.only_reports hk) l none "").only_bind fun _ =>
    (emits_pure ()).mono fun _ _ => Trace.only_silent

theorem only_jobFailed (c : Cluster τ) (ns name : Value) :
    (c.jobFailed ns name).Emits (.only fun r => r.mutates = false) := by
  unfold jobFailed
  cases hk : (Condition.jobFailed c.connection ns name : Checked (Condition τ)) with
  | invalid issues => exact (emits_fail (.invalid issues)).mono fun _ _ => Trace.only_silent
  | valid k =>
      show Emits (do pure (← k.check).isSome) _
      exact (Condition.only_reports hk).only_bind fun a =>
        (emits_pure a.isSome).mono fun _ _ => Trace.only_silent

end Cluster

end ClusterControl
