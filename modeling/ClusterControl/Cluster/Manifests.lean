import ClusterControl.Cluster.Resources

/-!
Lists of manifests, created or deleted in order up to the first failure. What is there already is not
created again, and what is gone already need not be deleted.
-/

namespace ClusterControl.Cluster

variable {τ : Type} [Time τ]

/-- The resource that a manifest describes; a namespace that it names goes before the given one. -/
structure Target where
  kind : Kind
  ns : Value
  name : Value

def target (default manifest : Value) : Op τ Target := do
  let kind ← Op.ofExcept (Manifest.kind manifest)
  let name ← Op.look (Manifest.name manifest)
  let ns ← Op.look (Manifest.ns manifest default)
  pure { kind, ns, name }

def applyManifest (c : Cluster τ) (default manifest : Value) : Op τ Unit := do
  let t ← target default manifest
  Op.onRejection (do let _ ← Resource.create c.connection t.kind t.ns manifest) fun r =>
    if r.isConflict then pure () else refuse ("create " ++ t.kind.label) t.name r

def deleteManifest (c : Cluster τ) (default manifest : Value) : Op τ Unit := do
  let t ← target default manifest
  Op.onRejection (do let _ ← Resource.delete c.connection t.kind t.ns t.name .null)
    (refuse ("delete " ++ t.kind.label) t.name)

def applyManifests (c : Cluster τ) (default : Value) : List Value → Op τ Unit
  | [] => pure ()
  | m :: ms => do
    c.applyManifest default m
    c.applyManifests default ms

def deleteManifests (c : Cluster τ) (default : Value) : List Value → Op τ Unit
  | [] => pure ()
  | m :: ms => do
    c.deleteManifest default m
    c.deleteManifests default ms

end ClusterControl.Cluster
