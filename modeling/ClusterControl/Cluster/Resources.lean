import ClusterControl.Resource.Custom
import ClusterControl.Resource.Manifest
import ClusterControl.Wait.Condition

/-!
What is done with the resources of a cluster through its handle. A request that the cluster rejects
becomes a failure that says what was tried on what.
-/

namespace ClusterControl.Cluster

variable {τ : Type} [Time τ]

def managedByLabel : String := "app.kubernetes.io/managed-by"

def managedByValue : String := "paas"

def refuse {α : Type} (operation : String) (target : Value) (r : Rejection) : Op τ α :=
  Op.fail (.refused operation target r.reason (some (.rejected r)))

/-! ## Custom resources -/

def applicationGroup : String := "application.paas.io"

def applications (c : Cluster τ) : CustomResource := ⟨c.connection, applicationGroup, "v1", "apps"⟩

def applicationCharts (c : Cluster τ) : CustomResource :=
  ⟨c.connection, applicationGroup, "v1", "appcharts"⟩

/-! ## Namespaces -/

def namespaceExists (c : Cluster τ) (name : Value) : Op τ Bool := do
  pure (← Resource.get c.connection .namespaceKind .null name).isSome

def isManaged (ns : Value) : Except Malformed Bool := do
  let labels ← (← ns.field "metadata").field "labels"
  if labels.truthy then do pure ((← labels.field managedByLabel).same managedByValue) else pure false

def namespaceManaged (c : Cluster τ) (name : Value) : Op τ Bool := do
  match ← Resource.get c.connection .namespaceKind .null name with
  | none => pure false
  | some ns => Op.look (isManaged ns)

/-- The cluster is sent no field without a value. -/
def namespaceBody (name labels annotations : Value) : Value :=
  .pruned <| .obj
    [("metadata", .obj [("name", name), ("labels", labels), ("annotations", annotations)])]

def createNamespace (c : Cluster τ) (name labels annotations : Value) : Op τ Value :=
  (Resource.create c.connection .namespaceKind .null (namespaceBody name labels annotations)).onRejection
    (refuse "create namespace" name)

/-! ## Secrets and configuration -/

def existing (c : Cluster τ) (k : Kind) (ns name : Value) : Op τ Value := do
  match ← Resource.get c.connection k ns name with
  | some object => pure object
  | none => Op.fail (.missing k.label name ns)

def secret (c : Cluster τ) (ns name : Value) : Op τ Value := c.existing .secret ns name

def configMap (c : Cluster τ) (ns name : Value) : Op τ Value := c.existing .configMap ns name

/-- The name of what was to be created is looked up only where it is needed for the failure. -/
def createBody (c : Cluster τ) (k : Kind) (operation : String) (ns : Value) (body : Body) : Op τ Value :=
  (Resource.create c.connection k ns body.value).onRejection fun r => do
    refuse operation (← Op.look body.name) r

def createSecret (c : Cluster τ) (ns : Value) (body : Body) : Op τ Value :=
  c.createBody .secret "create secret" ns body

def secretBody (name data labels : Value) : Value :=
  .pruned <| .obj [("data", data), ("metadata", .obj [("name", name), ("labels", labels)])]

def createLabeledSecret (c : Cluster τ) (ns name data labels : Value) : Op τ Value :=
  c.createSecret ns (.object (secretBody name data labels))

def deleteSecret (c : Cluster τ) (ns name : Value) : Op τ Unit := do
  let deleted ← (Resource.delete c.connection .secret ns name .null).onRejection
    (refuse "delete secret" name)
  if deleted then pure () else Op.fail (.refused "delete secret" name "not found" none)

/-! ## Pods, jobs, ingresses -/

def pods (c : Cluster τ) (ns selector : Value) : Op τ Value :=
  Resource.list c.connection .pod ns selector

def jobs (c : Cluster τ) (ns selector : Value) : Op τ Value :=
  Resource.list c.connection .job ns selector

def ingresses (c : Cluster τ) (ns selector : Value) : Op τ Value :=
  Resource.list c.connection .ingress ns selector

def createJob (c : Cluster τ) (ns : Value) (body : Body) : Op τ Value :=
  c.createBody .job "create job" ns body

/-- The pods of a job are deleted in the background. -/
def deleteJob (c : Cluster τ) (ns name : Value) : Op τ Bool :=
  (Resource.delete c.connection .job ns name "Background").onRejection (refuse "delete job" name)

def jobFailed (c : Cluster τ) (ns name : Value) : Op τ Bool := do
  let condition ← Op.ofChecked (Condition.jobFailed c.connection ns name)
  pure (← condition.check).isSome

/-! ## The cluster itself -/

def version (c : Cluster τ) : Op τ Value :=
  c.connection.version.onRejection fun r =>
    Op.fail (.cluster ("failed to get kube server version: " ++ r.reason.text) (some (.rejected r)))

def close (c : Cluster τ) : Op τ Unit := c.connection.close

end ClusterControl.Cluster
