import ClusterControl.Resource.Access

/-!
Resources of a kind that was added to the cluster by a definition.
-/

namespace ClusterControl

structure CustomResource where
  connection : Connection
  group : Value
  version : Value
  plural : Value

namespace CustomResource

variable {τ : Type} [Time τ]

def text (r : CustomResource) : String :=
  "CustomResourceClient(" ++ r.plural.text ++ "." ++ r.group.text ++ "/" ++ r.version.text ++ ")"

def request (r : CustomResource) (method : String) (args : List (String × Value)) : Request :=
  ⟨⟨.custom, method⟩, [("group", r.group), ("version", r.version), ("plural", r.plural)] ++ args⟩

def get (r : CustomResource) (ns name : Value) : Op τ (Option Value) := do
  let found ← (r.connection.send
    (r.request "get_namespaced_custom_object" [("namespace", ns), ("name", name)])).onNotFound (pure .null)
  pure (if found.isNull then none else some found)

def list (r : CustomResource) (ns selector : Value) : Op τ Value := do
  let chosen := Resource.optionalArg "label_selector" selector
  let answer ← r.connection.send <|
    if ns.isNull then r.request "list_cluster_custom_object" chosen
    else r.request "list_namespaced_custom_object" (("namespace", ns) :: chosen)
  Op.look (answer.fieldOr "items" (.list []))

def create (r : CustomResource) (ns body : Value) : Op τ Value :=
  r.connection.send (r.request "create_namespaced_custom_object" [("namespace", ns), ("body", body)])

def delete (r : CustomResource) (ns name : Value) : Op τ Bool :=
  Op.onNotFound
    (do
      let _ ← r.connection.send
        (r.request "delete_namespaced_custom_object" [("namespace", ns), ("name", name)])
      pure true)
    (pure false)

end CustomResource

end ClusterControl
