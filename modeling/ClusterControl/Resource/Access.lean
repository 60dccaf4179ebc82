import ClusterControl.Connection.Lifecycle
import ClusterControl.Resource.Kind

/-!
Reading, listing, creating and deleting resources of the built-in kinds. That a resource is not there
is a result and not a failure, whether the cluster rejects the request as not found or answers it with
nothing.
-/

namespace ClusterControl.Resource

variable {τ : Type} [Time τ]

/-- An argument that is left out unless it says something. -/
def optionalArg (name : String) (v : Value) : List (String × Value) :=
  if v.truthy then [(name, v)] else []

def readRequest (k : Kind) (ns name : Value) : Request :=
  ⟨k.endpoint .read ns, ("name", name) :: k.scopeArgs ns⟩

def listRequest (k : Kind) (ns selector : Value) : Request :=
  ⟨k.endpoint .list ns,
    optionalArg "label_selector" selector ++ if ns.isNull then [] else k.scopeArgs ns⟩

def createRequest (k : Kind) (ns body : Value) : Request :=
  ⟨k.endpoint .create ns, ("body", body) :: k.scopeArgs ns⟩

def deleteRequest (k : Kind) (ns name policy : Value) : Request :=
  ⟨k.endpoint .delete ns, ("name", name) :: k.scopeArgs ns ++ optionalArg "propagation_policy" policy⟩

def get (c : Connection) (k : Kind) (ns name : Value) : Op τ (Option Value) := do
  let found ← (c.send (readRequest k ns name)).onNotFound (pure .null)
  pure (if found.isNull then none else some found)

def list (c : Connection) (k : Kind) (ns selector : Value) : Op τ Value := do
  Op.look ((← c.send (listRequest k ns selector)).field "items")

def create (c : Connection) (k : Kind) (ns body : Value) : Op τ Value :=
  c.send (createRequest k ns body)

/-- Whether there was something to delete. -/
def delete (c : Connection) (k : Kind) (ns name policy : Value) : Op τ Bool :=
  Op.onNotFound (do let _ ← c.send (deleteRequest k ns name policy); pure true) (pure false)

end ClusterControl.Resource
