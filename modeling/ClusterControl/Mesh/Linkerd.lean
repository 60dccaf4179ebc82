import ClusterControl.Cluster.Manifests
import ClusterControl.Cluster.Waits

/-!
The Linkerd service mesh, which is installed and removed by jobs that run inside the cluster. The roles
that the jobs run under are created before an installation and deleted after a removal. Only a
namespace that this library created is ever removed.
-/

namespace ClusterControl

structure Linkerd (τ : Type) where
  installJob : Value
  uninstallJob : Value
  roles : List Value := []
  timeout : Option (Seconds τ) := none
  /-- Where the job runs that removes the namespace of the mesh, so it cannot be that namespace. -/
  uninstallNs : Value := "default"
  sink : Sink τ := .logger

namespace Linkerd

variable {τ : Type} [Time τ]

/-- The name of the deployment and of its namespace. -/
def id : String := "linkerd"

def text : String := "Linkerd version: 2.10.2"

def limits (d : Linkerd τ) : Cluster.Limits τ := { timeout := d.timeout }

/-- A failure that this library words itself is reported as the failure of a step. -/
def step {α : Type} (what : String) (x : Op τ α) : Op τ α :=
  x.onCluster fun e => Op.fail (.cluster (what ++ ": " ++ e.message) (some e))

def createNamespace (c : Cluster τ) : Op τ Unit := do
  if ← c.namespaceExists id then pure ()
  else do
    let _ ← c.createNamespace id
      (.obj [(Cluster.managedByLabel, Cluster.managedByValue)])
      (.obj [("linkerd.io/inject", "enabled")])

/-- The job that installs the mesh is followed to its end. -/
def conclude (d : Linkerd τ) (c : Cluster τ) (job : Value) : Op τ Unit := do
  step "failed waiting Linkerd install job to complete" (c.awaitJobDone id job d.limits)
  if ← c.jobFailed id job then
    Op.fail (.cluster ("Linkerd install job " ++ job.text ++ " failed") none)
  else Op.log .info "Linkerd deployed"

/-- A job that an earlier run left behind is deleted first. -/
def replaceJob (d : Linkerd τ) (c : Cluster τ) (job : Value) : Op τ Unit := do
  let _ ← c.deleteJob id job
  let _ ← c.createJob id (.manifest d.installJob)
  d.conclude c job

def install (d : Linkerd τ) (c : Cluster τ) : Op τ Unit := do
  createNamespace c
  c.applyManifests d.uninstallNs d.roles
  d.replaceJob c (← Op.look (Manifest.name d.installJob))

def deploy (d : Linkerd τ) (c : Cluster τ) (skip : Bool) : Op τ Unit := do
  if skip then Op.log .info "Skipping Linkerd deployment by user request"
  else if ← c.namespaceExists id then
    Op.fail (.cluster ("Namespace " ++ id ++ " present already") none)
  else do
    Op.log .info "Deploying Linkerd..."
    d.install c

def upgrade (d : Linkerd τ) (c : Cluster τ) : Op τ Unit := do
  if ← c.namespaceExists id then do
    Op.log .info "Upgrading Linkerd..."
    d.install c
  else Op.fail (.cluster ("Namespace " ++ id ++ " not present") none)

/-- The namespace is removed by a job, and the roles once it is gone. -/
def clear (d : Linkerd τ) (c : Cluster τ) : Op τ Unit := do
  let _ ← c.createJob d.uninstallNs (.manifest d.uninstallJob)
  step ("failed to delete namespace " ++ id) (c.awaitNamespaceAbsent id d.limits (some d.sink))
  c.deleteManifests d.uninstallNs d.roles
  Op.log .info "Linkerd removed"

def delete (d : Linkerd τ) (c : Cluster τ) : Op τ Unit := do
  Op.log .info "Removing Linkerd..."
  if ← c.namespaceManaged id then d.clear c
  else
    Op.log .warning
      "Skipping Linkerd because namespace either doesn't exist or is not owned by us"

end Linkerd

end ClusterControl
