import ClusterControl.Proofs.Resource.Access
import ClusterControl.Resource.Manifest

/-!
# What manifests call for

A manifest is created and deleted by the two methods that serve its kind. The methods are written down here in
full, under the names that manifests have for the kinds, and with the arguments that they are given. The requests of the
library are the ones that are read off here.
-/

namespace ClusterControl

variable {τ : Type}

/-! ## The methods -/

/-- The methods that create and delete the resources of one kind, and whether these lie in namespaces. -/
structure Service where
  kind : String
  group : Group
  create : String
  delete : String
  namespaced : Bool

namespace Service

def table : List Service :=
  [⟨"Namespace", .core, "create_namespace", "delete_namespace", false⟩,
   ⟨"Pod", .core, "create_namespaced_pod", "delete_namespaced_pod", true⟩,
   ⟨"Job", .batch, "create_namespaced_job", "delete_namespaced_job", true⟩,
   ⟨"Deployment", .apps, "create_namespaced_deployment", "delete_namespaced_deployment", true⟩,
   ⟨"Secret", .core, "create_namespaced_secret", "delete_namespaced_secret", true⟩,
   ⟨"ConfigMap", .core, "create_namespaced_config_map", "delete_namespaced_config_map", true⟩,
   ⟨"Ingress", .networking, "create_namespaced_ingress", "delete_namespaced_ingress", true⟩,
   ⟨"CustomResourceDefinition", .definitions, "create_custom_resource_definition",
      "delete_custom_resource_definition", false⟩,
   ⟨"ServiceAccount", .core, "create_namespaced_service_account", "delete_namespaced_service_account", true⟩,
   ⟨"ClusterRole", .access, "create_cluster_role", "delete_cluster_role", false⟩,
   ⟨"ClusterRoleBinding", .access, "create_cluster_role_binding", "delete_cluster_role_binding", false⟩]

def ofLabel? (label : String) : Option Service := table.find? fun s => s.kind == label

/-- What serves the kind that a manifest names, if it is supported. -/
def of? (m : Value) : Option Service :=
  match m.field? "kind" with
  | .str label => ofLabel? label
  | _ => none

/-- The namespace, where the resources lie in one. -/
def scope (s : Service) (ns : Value) : List (String × Value) := if s.namespaced then [("namespace", ns)] else []

def creation (s : Service) (ns body : Value) : Request := ⟨⟨s.group, s.create⟩, ("body", body) :: s.scope ns⟩

def deletion (s : Service) (ns name : Value) : Request := ⟨⟨s.group, s.delete⟩, ("name", name) :: s.scope ns⟩

/-! ## The requests of the library -/

open Resource

/-- The requests for the kind are those of the service. -/
structure Serves (s : Service) (k : Kind) : Prop where
  creation_eq (ns body : Value) : createRequest k ns body = s.creation ns body
  deletion_eq (ns name : Value) : deleteRequest k ns name .null = s.deletion ns name

theorem exists_serves {k : Kind} {label : String} (h : k.manifestLabel? = some label) :
    ∃ s, ofLabel? label = some s ∧ s.Serves k := by
  cases k with
  | node => cases h
  | _ =>
      obtain rfl := Option.some.inj h
      exact ⟨_, rfl, fun _ _ => rfl, fun _ _ => rfl⟩

theorem exists_label_of_mem : ∀ s ∈ table, ∃ k ∈ Kind.all, k.manifestLabel? = some s.kind := by decide

theorem kind_of_batch : ∀ s ∈ table, s.group = .batch → s.kind = "Job" := by decide

variable {m : Value} {s : Service}

theorem of?_eq_some (h : of? m = some s) : s ∈ table ∧ m.field? "kind" = .str s.kind := by
  unfold of? at h
  split at h
  · rename_i label hlabel
    obtain rfl : s.kind = label := by simpa using List.find?_some h
    exact ⟨List.mem_of_find?_eq_some h, hlabel⟩
  · cases h

theorem exists_kind (h : of? m = some s) :
    ∃ k label, k.manifestLabel? = some label ∧ m.field? "kind" = .str label ∧ s.Serves k := by
  obtain ⟨hmem, hfield⟩ := of?_eq_some h
  obtain ⟨k, _, hk⟩ := exists_label_of_mem s hmem
  obtain ⟨s', hs', hserves⟩ := exists_serves hk
  rw [of?, hfield] at h
  obtain rfl : s' = s := Option.some.inj (hs'.symm.trans h)
  exact ⟨k, s'.kind, hk, hfield, hserves⟩

end Service

/-! ## Manifests -/

namespace Manifest

open Service

/-- The metadata of a manifest in which the name, if there is one, is a text. -/
structure Described (m : Value) (metadata : List (String × Value)) : Prop where
  field_eq : m.field? "metadata" = .obj metadata
  text_name : ∀ v, metadata.lookup "name" = some v → ∃ s, v = .str s

/-- The request that creates what a manifest of a supported kind describes, in the namespace that it names
or else in the given one. -/
def Creates (default m : Value) (r : Request) : Prop :=
  ∃ s metadata, Service.of? m = some s ∧ Described m metadata ∧
    r = s.creation ((metadata.lookup "namespace").getD default) m

/-- The request that deletes what a manifest of a supported kind describes, in the namespace that it names
or else in the given one. -/
def Deletes (default m : Value) (r : Request) : Prop :=
  ∃ s metadata, Service.of? m = some s ∧ Described m metadata ∧
    r = s.deletion ((metadata.lookup "namespace").getD default) ((metadata.lookup "name").getD "")

/-- A request that creates the object that a manifest is, of the kind that it names. -/
def MayCreate (m : Value) (r : Request) : Prop := ∃ s ns, Service.of? m = some s ∧ r = s.creation ns m

/-- A manifest that is described and names a supported kind. -/
structure Supported (m : Value) : Prop where
  described : ∃ metadata, Described m metadata
  kind : ∃ s, Service.of? m = some s

theorem Supported.exists_creation {m : Value} (h : Supported m) (default : Value) :
    ∃ r, Creates default m r := by
  obtain ⟨⟨metadata, hm⟩, s, hs⟩ := h
  exact ⟨_, s, metadata, hs, hm, rfl⟩

theorem Supported.exists_deletion {m : Value} (h : Supported m) (default : Value) :
    ∃ r, Deletes default m r := by
  obtain ⟨⟨metadata, hm⟩, s, hs⟩ := h
  exact ⟨_, s, metadata, hs, hm, rfl⟩

theorem MayCreate.eq_createRequest {m : Value} {r : Request} (h : MayCreate m r) :
    ∃ k ns, r = Resource.createRequest k ns m := by
  obtain ⟨s, ns, hs, rfl⟩ := h
  obtain ⟨k, _, _, _, hserves⟩ := exists_kind hs
  exact ⟨k, ns, (hserves.creation_eq ns m).symm⟩

theorem Deletes.eq_deleteRequest {default m : Value} {r : Request} (h : Deletes default m r) :
    ∃ k ns name, r = Resource.deleteRequest k ns name .null := by
  obtain ⟨s, _, hs, _, rfl⟩ := h
  obtain ⟨k, _, _, _, hserves⟩ := exists_kind hs
  exact ⟨k, _, _, (hserves.deletion_eq _ _).symm⟩

/-! ## What the library reads off a manifest -/

theorem kind_eq {m : Value} {s : Service} (h : Service.of? m = some s) :
    ∃ k, (kind m : Except (Failure τ) Kind) = .ok k ∧ s.Serves k := by
  obtain ⟨k, label, hk, hfield, hserves⟩ := exists_kind h
  have hread : m.field "kind" = .ok (.str label) := by
    cases m with
    | obj fields => exact congrArg Except.ok hfield
    | _ => cases hfield
  exact ⟨k, by simp only [kind, hread, Kind.ofManifestLabel?_eq_some hk], hserves⟩

theorem of?_of_kind {m : Value} {k : Kind} (h : (kind m : Except (Failure τ) Kind) = .ok k) :
    ∃ s, Service.of? m = some s ∧ s.Serves k := by
  unfold kind at h
  split at h
  · cases h
  · cases h
  · cases h
  · rename_i label hread
    split at h
    · rename_i k' hlabel
      obtain rfl := Except.ok.inj h
      rw [Service.of?, Value.field_eq_ok_field? hread]
      exact exists_serves (by simpa using List.find?_some hlabel)
    · cases h
  · cases h

theorem metadata_eq {m : Value} {fields : List (String × Value)} (h : m.field? "metadata" = .obj fields) :
    metadata m = .ok (.obj fields) := by
  cases m with
  | obj fs =>
      simp only [Value.field?] at h
      cases hl : fs.lookup "metadata" with
      | none => rw [hl] at h; cases h
      | some v =>
          rw [hl] at h
          obtain rfl : v = .obj fields := h
          simp only [metadata, Value.fieldOr, hl, Option.getD_some]
  | _ => cases h

theorem name_eq_lookup {m : Value} {fields : List (String × Value)}
    (h : m.field? "metadata" = .obj fields) : name m = .ok ((fields.lookup "name").getD "") := by
  simp [name, metadata_eq h, bind, Except.bind, Value.fieldOr]

theorem Described.exists_name {m : Value} {fields : List (String × Value)} (h : Described m fields) :
    ∃ s : String, (fields.lookup "name").getD "" = .str s ∧ name m = .ok (.str s) := by
  rw [name_eq_lookup h.field_eq]
  cases hl : fields.lookup "name" with
  | none => exact ⟨"", rfl, rfl⟩
  | some v =>
      obtain ⟨s, rfl⟩ := h.text_name v hl
      exact ⟨s, rfl, rfl⟩

theorem Described.ns_eq {m : Value} {fields : List (String × Value)} (h : Described m fields)
    (default : Value) : ns m default = .ok ((fields.lookup "namespace").getD default) := by
  simp [ns, metadata_eq h.field_eq, bind, Except.bind, Value.fieldOr]

end Manifest

end ClusterControl
