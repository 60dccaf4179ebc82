import ClusterControl.Platform.Nodes

/-!
Strategies: each recognizes one platform and describes the cluster as one of its kind.
-/

namespace ClusterControl

structure Strategy (τ : Type) where
  name : String
  description : String
  detect : Connection → Op τ Bool
  /-- The addresses as the nodes give them. -/
  externalIps : Connection → Op τ (List Value)
  load : Connection → Op τ Platform

namespace Strategy

variable {τ : Type} [Time τ]

/-- The platform with its addresses, which must be texts. -/
def describe (name description : String) (externalIps : Connection → Op τ (List Value))
    (c : Connection) : Op τ Platform := do
  let ips ← externalIps c
  Op.ofChecked (Platform.ofFields
    [("name", name), ("description", description), ("external_ips", .list ips)])

def ofProbe (name description : String) (externalIps : Connection → Op τ (List Value))
    (detect : Connection → Op τ Bool) : Strategy τ :=
  ⟨name, description, detect, externalIps, describe name description externalIps⟩

/-- The same strategy, but every use of it is written into the history. -/
def traced (s : Strategy τ) : Strategy τ :=
  { s with
    detect := fun c => do
      Op.probed .detect s.name
      s.detect c
    load := fun c => do
      Op.probed .load s.name
      s.load c }

def nodeIps (type : String) (c : Connection) : Op τ (List Value) := do
  Op.look (Node.addresses (← Node.all c) type)

def internalIps : Connection → Op τ (List Value) := nodeIps "InternalIP"

/-- Some node passes; the nodes after it are not looked at. -/
def someNode (passes : Value → Except Malformed Bool) (c : Connection) : Op τ Bool := do
  Op.look ((← Node.all c).anyM passes)

/-! ## The platforms that are known -/

def kind : Strategy τ :=
  ofProbe "kind" "Kind (Kubernetes in Docker)" internalIps
    (someNode fun node => Node.providedBy node "kind")

def k3s : Strategy τ :=
  ofProbe "k3s" "K3s lightweight Kubernetes" internalIps
    (someNode fun node => do
      if (← Node.label node "node.kubernetes.io/instance-type").same "k3s" then pure true
      else Node.providedBy node "k3s")

def ibm : Strategy τ :=
  ofProbe "ibm" "IBM Cloud Kubernetes Service" (nodeIps "ExternalIP")
    (fun c => do pure (← Resource.get c .namespaceKind .null "ibm-system").isSome)

def minikube : Strategy τ :=
  ofProbe "minikube" "Minikube" internalIps
    (someNode fun node => Node.hasLabel node "minikube.k8s.io/name")

/-- Any cluster; nothing is known of its addresses. -/
def generic : Strategy τ :=
  ofProbe Platform.generic.name Platform.generic.description (fun _ => pure []) (fun _ => pure true)

/-- In the order in which they are tried. -/
def known : List (Strategy τ) := [kind, k3s, ibm, minikube]

def ofName? (name : String) : Option (Strategy τ) :=
  (known ++ [generic]).find? fun s => s.name == name

end Strategy

end ClusterControl
