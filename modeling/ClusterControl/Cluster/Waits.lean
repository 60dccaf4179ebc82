import ClusterControl.Cluster.Resources
import ClusterControl.Wait.Definition
import ClusterControl.Wait.Progress

/-!
Waits on a cluster through its handle, at the interval of the handle and with its timeout unless the
caller gives one.
-/

namespace ClusterControl.Cluster

variable {τ : Type} [Time τ]

/-- What a caller can say about a wait. -/
structure Limits (τ : Type) where
  timeout : Option (Seconds τ) := none
  /-- The instant from which the wait is cancelled. -/
  cancel : Option τ := none

def timeoutOf (c : Cluster τ) (given : Option (Seconds τ)) : Seconds τ := given.getD c.timeout

def wait (c : Cluster τ) (condition : Checked (Condition τ)) (l : Limits τ)
    (sink : Option (Sink τ)) (message : String) : Op τ Value := do
  let condition ← Op.ofChecked condition
  withProgress sink message (condition.poll c.interval (c.timeoutOf l.timeout) l.cancel)

def awaitJobDone (c : Cluster τ) (ns name : Value) (l : Limits τ) : Op τ Unit := do
  let _ ← c.wait (Condition.jobDone c.connection ns name) l none ""

def awaitJobCompleted (c : Cluster τ) (ns name : Value) (l : Limits τ) : Op τ Unit := do
  let _ ← c.wait (Condition.jobCompleted c.connection ns name) l none ""

def awaitDeployment (c : Cluster τ) (ns name : Value) (l : Limits τ) (sink : Option (Sink τ)) :
    Op τ Unit := do
  let _ ← c.wait (Condition.deploymentAvailable c.connection ns name) l sink
    ("Waiting for deployment " ++ name.text ++ " in " ++ ns.text ++ " to be ready")

def awaitNamespaceAbsent (c : Cluster τ) (name : Value) (l : Limits τ) (sink : Option (Sink τ)) :
    Op τ Unit := do
  let _ ← c.wait (Condition.namespaceAbsent c.connection name) l sink
    ("Waiting for namespace " ++ name.text ++ " to be deleted")

def awaitPodsAbsent (c : Cluster τ) (ns selector : Value) (tolerant : Bool) (l : Limits τ) :
    Op τ Unit := do
  let _ ← c.wait (Condition.podAbsent c.connection ns selector tolerant) l none ""

/-- Hands back the secret that ended the wait. -/
def awaitSecret (c : Cluster τ) (ns name : Value) (l : Limits τ) : Op τ Value :=
  c.wait (Condition.secretPresent c.connection ns name) l none ""

def awaitDefinition (c : Cluster τ) (name : Value) (establishedTimeout : Option (Seconds τ))
    (l : Limits τ) (sink : Option (Sink τ)) : Op τ Unit :=
  withProgress sink ("Waiting for CRD " ++ name.text ++ " to be ready to use")
    ((DefinitionWait.start c.connection name c.interval).wait (c.timeoutOf l.timeout) establishedTimeout l.cancel)

end ClusterControl.Cluster
