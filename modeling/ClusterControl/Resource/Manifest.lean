import ClusterControl.Resource.Kind

/-!
Manifests: descriptions of resources to be. Each names its kind, its name and perhaps its namespace.
-/

namespace ClusterControl

namespace Manifest

variable {τ : Type}

def unsupported (kind : Value) : Failure τ :=
  .argument ("Unsupported manifest kind: " ++ kind.text)

/-- A list or an object in the place of the kind is no name at all, not merely an unknown one. -/
def kind (manifest : Value) : Except (Failure τ) Kind :=
  match manifest.field "kind" with
  | .error m => .error (.malformed m)
  | .ok (.list _) | .ok (.obj _) => .error (.malformed .sort)
  | .ok (.str s) => match Kind.ofManifestLabel? s with
    | some k => .ok k
    | none => .error (unsupported s)
  | .ok v => .error (unsupported v)

def metadata (manifest : Value) : Except Malformed Value := manifest.fieldOr "metadata" (.obj [])

/-- A manifest without a name has the empty one. -/
def name (manifest : Value) : Except Malformed Value := do
  (← metadata manifest).fieldOr "name" ""

def ns (manifest default : Value) : Except Malformed Value := do
  (← metadata manifest).fieldOr "namespace" default

end Manifest

/-- What is sent to be created: a manifest, or an object in which every field is present. -/
inductive Body where
  | manifest (v : Value)
  | object (v : Value)

namespace Body

def value : Body → Value
  | .manifest v => v
  | .object v => v

/-- The metadata of a manifest may be absent, those of an object may not. -/
def name : Body → Except Malformed Value
  | .manifest v => Manifest.name v
  | .object v => do (← v.field "metadata").field "name"

end Body

end ClusterControl
