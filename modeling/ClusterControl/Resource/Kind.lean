import ClusterControl.Failure
import ClusterControl.Request

/-!
The kinds of resources, what each is called, and which endpoint serves it. Kinds that belong to the
cluster as a whole have no namespace; a list over all namespaces has an endpoint of its own.
-/

namespace ClusterControl

inductive Kind where
  | namespaceKind
  | node
  | pod
  | job
  | deployment
  | secret
  | configMap
  | ingress
  | definition
  | serviceAccount
  | clusterRole
  | clusterRoleBinding
  deriving Repr, DecidableEq, Inhabited

inductive Verb where
  | read
  | list
  | create
  | delete
  deriving Repr, DecidableEq, Inhabited

namespace Verb

def label : Verb → String
  | .read => "read"
  | .list => "list"
  | .create => "create"
  | .delete => "delete"

end Verb

namespace Kind

def all : List Kind :=
  [.namespaceKind, .node, .pod, .job, .deployment, .secret, .configMap, .ingress, .definition,
   .serviceAccount, .clusterRole, .clusterRoleBinding]

theorem mem_all (k : Kind) : k ∈ all := by cases k <;> simp [all]

def label : Kind → String
  | .namespaceKind => "namespace"
  | .node => "node"
  | .pod => "pod"
  | .job => "job"
  | .deployment => "deployment"
  | .secret => "secret"
  | .configMap => "configmap"
  | .ingress => "ingress"
  | .definition => "crd"
  | .serviceAccount => "serviceaccount"
  | .clusterRole => "clusterrole"
  | .clusterRoleBinding => "clusterrolebinding"

/-- The kind as a manifest names it; nodes are not created from manifests. -/
def manifestLabel? : Kind → Option String
  | .namespaceKind => some "Namespace"
  | .node => none
  | .pod => some "Pod"
  | .job => some "Job"
  | .deployment => some "Deployment"
  | .secret => some "Secret"
  | .configMap => some "ConfigMap"
  | .ingress => some "Ingress"
  | .definition => some "CustomResourceDefinition"
  | .serviceAccount => some "ServiceAccount"
  | .clusterRole => some "ClusterRole"
  | .clusterRoleBinding => some "ClusterRoleBinding"

def ofLabel? (s : String) : Option Kind := all.find? fun k => k.label == s

def ofManifestLabel? (s : String) : Option Kind := all.find? fun k => k.manifestLabel? == some s

theorem ofLabel?_label (k : Kind) : ofLabel? k.label = some k := by cases k <;> rfl

theorem ofManifestLabel?_eq_some {k : Kind} {s : String} (h : k.manifestLabel? = some s) :
    ofManifestLabel? s = some k := by
  cases k <;> simp only [manifestLabel?, Option.some.injEq, reduceCtorEq] at h <;> subst h <;> rfl

def group : Kind → Group
  | .namespaceKind | .node | .pod | .secret | .configMap | .serviceAccount => .core
  | .job => .batch
  | .deployment => .apps
  | .ingress => .networking
  | .definition => .definitions
  | .clusterRole | .clusterRoleBinding => .access

def clusterScoped : Kind → Bool
  | .namespaceKind | .node | .definition | .clusterRole | .clusterRoleBinding => true
  | _ => false

/-- The kind within the name of a client method. -/
def methodName : Kind → String
  | .namespaceKind => "namespace"
  | .node => "node"
  | .pod => "pod"
  | .job => "job"
  | .deployment => "deployment"
  | .secret => "secret"
  | .configMap => "config_map"
  | .ingress => "ingress"
  | .definition => "custom_resource_definition"
  | .serviceAccount => "service_account"
  | .clusterRole => "cluster_role"
  | .clusterRoleBinding => "cluster_role_binding"

/-- The method of a kind of the whole cluster, or the one for all namespaces, or the one for a single
namespace. -/
def endpoint (k : Kind) (verb : Verb) (ns : Value) : Endpoint :=
  ⟨k.group,
    if k.clusterScoped then verb.label ++ "_" ++ k.methodName
    else if verb = .list && ns.isNull then "list_" ++ k.methodName ++ "_for_all_namespaces"
    else verb.label ++ "_namespaced_" ++ k.methodName⟩

/-- The namespace as an argument, where the method takes one. -/
def scopeArgs (k : Kind) (ns : Value) : List (String × Value) :=
  if k.clusterScoped then [] else [("namespace", ns)]

/-- The kind that a caller names. -/
def ofValue {τ : Type} (v : Value) : Except (Failure τ) Kind :=
  let known := match v with
    | .str s => ofLabel? s
    | _ => none
  match known with
  | some k => .ok k
  | none => .error (.argument (v.literal ++ " is not a valid ResourceKind"))

end Kind

end ClusterControl
